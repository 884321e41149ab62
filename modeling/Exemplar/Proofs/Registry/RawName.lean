import Exemplar.Proofs.Registry.Rules
import Exemplar.Proofs.Text.Ends
import Exemplar.Proofs.TypeTerm.Grammar

/-!
# Exemplar.Proofs.Registry.RawName

Blanks around the text of a type that is looked up.  A text without type
arguments loses the blanks on both sides; of a text with type arguments only
the name before them is left, without the blanks behind the name.  So blanks
behind a text never matter.  Blanks in front of it do, if there are type
arguments and a name: then the rule of the name is not found.

* `trimEnd_append_eq_iff` — blanks in front of a text that loses those behind;
* `nameChars`, `Ty.nameChars_text` — what stands before the type arguments;
* `rawName_padded_iff` — blanks around a text;
* `rawName_rawName_iff` — raw names of raw names;
* `rawName_arguments_iff` — type arguments and blanks;
* `sameAnswers_iff` — texts with the same answers;
* `lookup_padded` — where blanks make no difference.
-/

namespace Exemplar

/-! ## blanks at the end -/

section

variable {s u v : List Char}

/-- A text does not begin with a blank, or is all blanks. -/
def Flush (s : List Char) : Prop := Blanks s ∨ s.head?.any isBlank = false

instance (s : List Char) : Decidable (Flush s) := inferInstanceAs (Decidable (_ ∨ _))

/-- Blanks at the end do not change the trimmed text. -/
theorem trimEnd_append_blanks (hv : Blanks v) : trimEnd (s ++ v) = trimEnd s :=
  rdropWhile_append_of_forall hv

theorem trimEnd_eq_nil_iff : trimEnd s = [] ↔ Blanks s := List.rdropWhile_eq_nil_iff

/-- Blanks in front of a text are left, unless nothing else is. -/
theorem trimEnd_append_eq_iff (hu : Blanks u) :
    trimEnd (u ++ s) = trimEnd s ↔ u = [] ∨ Blanks s := by
  by_cases hs : Blanks s
  · rw [trimEnd_eq_nil_iff.mpr hs, trimEnd_eq_nil_iff]
    exact iff_of_true (hu.append hs) (.inr hs)
  · have hsplit : trimEnd (u ++ s) = u ++ trimEnd s :=
      rdropWhile_append_of_ne_nil fun hnil => hs (trimEnd_eq_nil_iff.mp hnil)
    rw [hsplit, or_iff_left hs, List.append_left_eq_self]

/-- A text has no blanks in front that could be lost, exactly if it does not
begin with one, or has nothing else. -/
theorem trimEnd_eq_trim_iff : trimEnd s = trim s ↔ Flush s := by
  constructor
  · intro h
    obtain ⟨u, hu, hsplit⟩ := exists_blanks_append s
    have hsame : trimEnd (u ++ skipBlanks s) = trimEnd (skipBlanks s) := by rw [hsplit]; exact h
    -- there are no blanks in front, or nothing but blanks
    obtain rfl | hrest := (trimEnd_append_eq_iff hu).mp hsame
    · have hnot := List.head?_dropWhile_not isBlank s
      rw [← skipBlanks, ← List.nil_append (skipBlanks s), hsplit] at hnot
      refine .inr ?_
      cases hhead : s.head? with
      | none => rfl
      | some c => rwa [hhead] at hnot
    · exact .inl (hsplit ▸ hu.append hrest)
  · rintro (hs | hhead)
    · rw [trim, skipBlanks_eq_nil hs, trimEnd_eq_nil_iff.mpr hs]
      rfl
    · cases s with
      | nil => rfl
      | cons c s => rw [trim, skipBlanks_cons_of_not_isBlank hhead]

/-- Trimming the end first changes nothing. -/
theorem trim_trimEnd (s : List Char) : trim (trimEnd s) = trim s := by
  have hsplit : trimEnd s ++ s.rtakeWhile isBlank = s := List.rdropWhile_append_rtakeWhile
  have hblanks : ∀ c ∈ s.rtakeWhile isBlank, isBlank c = true := fun c => List.mem_rtakeWhile_imp
  have hstrip := @stripEnds_append _ isBlank (trimEnd s) [] _ Blanks.nil hblanks
  rw [List.nil_append, hsplit] at hstrip
  exact hstrip.symm

theorem mem_of_mem_trimEnd {c : Char} (h : c ∈ trimEnd s) : c ∈ s :=
  (List.rdropWhile_prefix isBlank s).subset h

theorem mem_of_mem_trim {c : Char} (h : c ∈ trim s) : c ∈ s :=
  (List.dropWhile_suffix isBlank).subset (mem_of_mem_trimEnd h)

end

/-! ## names before type arguments -/

/-- The characters before the type arguments. -/
def nameChars (text : String) : List Char := text.toList.takeWhile (· ≠ '<')

section

variable {text : String}

theorem lt_not_mem_nameChars (text : String) : '<' ∉ nameChars text := by
  intro hmem
  rw [nameChars] at hmem
  exact absurd (List.mem_takeWhile_imp hmem) (by decide)

/-- A text without arguments goes on in what follows it. -/
theorem nameChars_append_of_not_mem (h : '<' ∉ text.toList) (rest : String) :
    nameChars (text ++ rest) = text.toList ++ nameChars rest := by
  have hkeep : ∀ c ∈ text.toList, decide (c ≠ '<') = true :=
    fun c hc => decide_eq_true (ne_of_mem_of_not_mem hc h)
  rw [nameChars, String.toList_append, List.takeWhile_append_of_pos hkeep, nameChars]

/-- Behind the first `<`, nothing belongs to the name. -/
theorem nameChars_append_of_mem (h : '<' ∈ text.toList) (rest : String) :
    nameChars (text ++ rest) = nameChars text := by
  rw [nameChars, String.toList_append, List.takeWhile_append, if_neg, nameChars]
  intro hlength
  have hall := (List.takeWhile_prefix (· ≠ '<')).eq_of_length hlength
  exact lt_not_mem_nameChars text (by rwa [nameChars, hall])

theorem nameChars_of_not_mem (h : '<' ∉ text.toList) : nameChars text = text.toList := by
  have hname := nameChars_append_of_not_mem h ""
  have hnone : nameChars "" = [] := rfl
  rwa [String.append_empty, hnone, List.append_nil] at hname

/-- Type arguments are left out. -/
theorem nameChars_append_opening (text arguments : String) :
    nameChars (text ++ ("<" ++ arguments)) = nameChars text := by
  by_cases h : '<' ∈ text.toList
  · exact nameChars_append_of_mem h _
  · have hnone : nameChars ("<" ++ arguments) = [] := by
      rw [nameChars, String.toList_append]
      rfl
    rw [nameChars_append_of_not_mem h, hnone, List.append_nil, nameChars_of_not_mem h]

/-- The text of a class with arguments has its name before them. -/
theorem Ty.nameChars_text (name : String) (args : List Ty) :
    nameChars (named name args).text = nameChars name := by
  cases args with
  | nil => rw [text_named_nil]
  | cons arg args =>
      have htext : (named name (arg :: args)).text =
          name ++ ("<" ++ String.ofList (arg.chars ++ moreChars args ++ ['>'])) := by
        rw [← String.toList_inj]
        simp [text, chars_named_cons, String.toList_append]
      rw [htext, nameChars_append_opening]

/-- The raw name of a text with arguments is trimmed at its end. -/
theorem toList_rawName_of_mem (h : '<' ∈ text.toList) :
    (rawName text).toList = trimEnd (nameChars text) := by
  rw [rawName]
  simp only [if_pos h]
  exact String.toList_ofList

/-- The raw name of a text without arguments is trimmed on both sides. -/
theorem toList_rawName_of_not_mem (h : '<' ∉ text.toList) :
    (rawName text).toList = trim text.toList := by
  rw [rawName]
  simp only [if_neg h]
  exact String.toList_ofList

/-- A raw name has no type arguments. -/
theorem lt_not_mem_rawName (text : String) : '<' ∉ (rawName text).toList := by
  by_cases h : '<' ∈ text.toList
  · rw [toList_rawName_of_mem h]
    exact fun hmem => lt_not_mem_nameChars text (mem_of_mem_trimEnd hmem)
  · rw [toList_rawName_of_not_mem h]
    exact fun hmem => h (mem_of_mem_trim hmem)

end

/-! ## blanks around texts -/

section

variable {u v text : String}

/-- **Blanks around a text** make no difference for its raw name, if there are
none in front of it, or no type arguments, or no name before them. -/
theorem rawName_padded_iff (hu : Blanks u.toList) (hv : Blanks v.toList) (text : String) :
    rawName (u ++ text ++ v) = rawName text ↔
      u = "" ∨ '<' ∉ text.toList ∨ Blanks (nameChars text) := by
  have hopening := lt_not_mem_of_blanks hu
  by_cases h : '<' ∈ text.toList
  · have hpadded : '<' ∈ (u ++ text).toList := by
      rw [String.toList_append]
      exact List.mem_append_right _ h
    have hall : '<' ∈ (u ++ text ++ v).toList := by
      rw [String.toList_append]
      exact List.mem_append_left _ hpadded
    rw [← String.toList_inj, toList_rawName_of_mem hall, toList_rawName_of_mem h,
      nameChars_append_of_mem hpadded, nameChars_append_of_not_mem hopening,
      trimEnd_append_eq_iff hu, String.toList_eq_nil_iff]
    simp [h]
  · have hall : '<' ∉ (u ++ text ++ v).toList := by
      simp [String.toList_append, hopening, h, lt_not_mem_of_blanks hv]
    have hstrip : rawName (u ++ text ++ v) = rawName text := by
      rw [← String.toList_inj, toList_rawName_of_not_mem hall, toList_rawName_of_not_mem h,
        String.toList_append, String.toList_append, trim_eq_stripEnds, stripEnds_append hu hv]
      rfl
    exact iff_of_true hstrip (.inr (.inl h))

/-- **The raw name of a raw name** is the raw name, unless the name before type
arguments has blanks in front of it: these are lost only the second time. -/
theorem rawName_rawName_iff (text : String) : rawName (rawName text) = rawName text ↔
    '<' ∉ text.toList ∨ Flush (nameChars text) := by
  rw [← String.toList_inj, toList_rawName_of_not_mem (lt_not_mem_rawName text)]
  by_cases h : '<' ∈ text.toList
  · rw [toList_rawName_of_mem h, trim_trimEnd, eq_comm, trimEnd_eq_trim_iff]
    simp [h]
  · rw [toList_rawName_of_not_mem h, trim_eq_stripEnds, trim_eq_stripEnds, stripEnds_stripEnds]
    exact iff_of_true rfl (.inl h)

/-- **Type arguments** behind a name and the blanks around it make no difference,
exactly if there are no blanks in front of the name, or there is no name. -/
theorem rawName_arguments_iff (hu : Blanks u.toList) (hv : Blanks v.toList)
    (h : '<' ∉ text.toList) (arguments : String) :
    rawName (u ++ text ++ v ++ "<" ++ arguments) = rawName text ↔ Flush (u ++ text).toList := by
  have hname : '<' ∉ (u ++ text ++ v).toList := by
    simp [String.toList_append, lt_not_mem_of_blanks hu, h, lt_not_mem_of_blanks hv]
  have hopening : '<' ∈ (u ++ text ++ v ++ ("<" ++ arguments)).toList := by
    simp [String.toList_append]
  have hstrip : trim text.toList = trim (u ++ text).toList := by
    have hall := @stripEnds_append _ isBlank text.toList _ [] hu Blanks.nil
    rw [List.append_nil] at hall
    rw [String.toList_append]
    exact hall.symm
  rw [String.append_assoc, ← String.toList_inj, toList_rawName_of_mem hopening,
    nameChars_append_opening, nameChars_of_not_mem hname, toList_rawName_of_not_mem h,
    String.toList_append, trimEnd_append_blanks hv, hstrip, trimEnd_eq_trim_iff]

end

/-! ## answers -/

namespace Registry

/-- Every registry answers two texts with the same value. -/
def SameAnswers (text other : String) : Prop :=
  ∀ registry, ((lookup text).run registry).1 = ((lookup other).run registry).1

/-- A registry sees nothing of a text but its raw name. -/
theorem sameAnswers_iff {text other : String} :
    SameAnswers text other ↔ rawName text = rawName other := by
  constructor
  · intro h
    have hanswer := h (empty.register (rawName text) (.fixed .null))
    rw [fst_run_lookup, fst_run_lookup, rule?_register, rule?_register, if_pos rfl] at hanswer
    by_contra hne
    rw [if_neg hne] at hanswer
    contradiction
  · intro h registry
    rw [fst_run_lookup, fst_run_lookup, h]

/-- **Where blanks around a text make no difference** for what is looked up: if
there are none in front of it, or no type arguments, or no name before them; and
for a name with type arguments behind it, if the name does not begin with a
blank.  In all other cases some registry answers differently, and the raw name
of the raw name is another one. -/
theorem lookup_padded {u v : String} (hu : Blanks u.toList) (hv : Blanks v.toList)
    (text : String) :
    (rawName (u ++ text ++ v) = rawName text ↔
      u = "" ∨ '<' ∉ text.toList ∨ Blanks (nameChars text)) ∧
    (rawName (rawName text) = rawName text ↔ '<' ∉ text.toList ∨ Flush (nameChars text)) ∧
    (SameAnswers (u ++ text ++ v) text ↔
      u = "" ∨ '<' ∉ text.toList ∨ Blanks (nameChars text)) ∧
    ('<' ∉ text.toList → ∀ arguments,
      SameAnswers (u ++ text ++ v ++ "<" ++ arguments) text ↔ Flush (u ++ text).toList) := by
  refine ⟨rawName_padded_iff hu hv text, rawName_rawName_iff text, ?_, fun h arguments => ?_⟩
  · rw [sameAnswers_iff, rawName_padded_iff hu hv]
  · rw [sameAnswers_iff, rawName_arguments_iff hu hv h]

/-- A blank in front of a list type makes a difference, and one in front of a
type without arguments or behind a name does not. -/
theorem lookup_padded_list :
    Blanks " ".toList ∧ Blanks "\t".toList ∧ '<' ∉ "int".toList ∧
    rawName (" " ++ "List<int>" ++ "\t") ≠ rawName "List<int>" ∧
    rawName (rawName " List<int>") ≠ rawName " List<int>" ∧
    ¬ SameAnswers (" " ++ "List<int>" ++ "\t") "List<int>" ∧
    ¬ SameAnswers (" " ++ "List" ++ "\t" ++ "<" ++ "int>") "List" ∧
    SameAnswers ("" ++ "List" ++ "\t" ++ "<" ++ "int>") "List" ∧
    SameAnswers (" " ++ "int" ++ "\t") "int" := by
  have hspace : Blanks " ".toList := by decide
  have htab : Blanks "\t".toList := by decide
  obtain ⟨hname, _, hanswers, _⟩ := lookup_padded hspace htab "List<int>"
  have htwice := (lookup_padded hspace htab " List<int>").2.1
  have harguments := (lookup_padded hspace htab "List").2.2.2 (by decide) "int>"
  have hnothing : Blanks "".toList := by decide
  have hbehind := (lookup_padded hnothing htab "List").2.2.2 (by decide) "int>"
  have hint := (lookup_padded hspace htab "int").2.2.1
  refine ⟨hspace, htab, by decide, ?_, ?_, ?_, ?_, hbehind.mpr (by decide), hint.mpr (by decide)⟩
  · exact fun h => absurd (hname.mp h) (by decide)
  · exact fun h => absurd (htwice.mp h) (by decide)
  · exact fun h => absurd (hanswers.mp h) (by decide)
  · exact fun h => absurd (harguments.mp h) (by decide)

end Registry

end Exemplar
