import Exemplar.CommandLine.Output
import Exemplar.Proofs.Except
import Exemplar.Proofs.Json.Printing
import Exemplar.Proofs.TypeTerm.Grammar

/-!
# Exemplar.Proofs.CommandLine.Lines

The lines of what `sample` prints with compact results.  No compact text has a
new line in it, so each is one line.  Results are joined by new lines
twice, those of one root type first; splitting the text undoes both, but a root
type without any result leaves a line that is empty.  What the filter does is
left open.

* `splitAtChar_intercalate` — splitting joined texts;
* `printable_of_mem_compactChars` — what stands in compact texts;
* `textWith` — the text that is printed, for any meaning of filters;
* `lines_of_textWith` — its lines.
-/

namespace Exemplar

/-! ## joining and splitting -/

/-- Joining parts and splitting again splits each part. -/
theorem splitAtChar_intercalate (separator : Char) (part : List Char) (more : List (List Char)) :
    splitAtChar separator (List.intercalate [separator] (part :: more)) =
      (part :: more).flatMap (splitAtChar separator) := by
  induction more generalizing part with
  | nil => rw [List.intercalate_singleton, List.flatMap_singleton]
  | cons next more ih =>
      rw [List.intercalate_cons_cons, List.append_assoc, List.singleton_append,
        splitAtChar_append_separator, ih]
      rfl

/-- The lines of a text. -/
def lines (text : String) : List String := (splitAtChar '\n' text.toList).map String.ofList

/-- A text without line ends is one line. -/
theorem lines_of_not_mem {text : String} (h : '\n' ∉ text.toList) : lines text = [text] := by
  rw [lines, splitAtChar_of_not_mem h, List.map_singleton, String.ofList_toList]

/-- Texts that are joined by new lines have all their lines. -/
theorem lines_intercalate {texts : List String} (h : texts ≠ []) :
    lines ("\n".intercalate texts) = texts.flatMap lines := by
  obtain ⟨text, more, rfl⟩ := List.exists_cons_of_ne_nil h
  have hnewLine : "\n".toList = ['\n'] := by decide
  rw [lines, String.toList_intercalate, hnewLine, List.map_cons, splitAtChar_intercalate,
    List.map_flatMap, ← List.map_cons, List.flatMap_map]
  rfl

/-! ## compact texts -/

namespace Json

/-- A character of numbers. -/
def IsNumberChar (c : Char) : Prop := c.isDigit = true ∨ c ∈ ['.', 'e', '-', '+']

instance (c : Char) : Decidable (IsNumberChar c) := inferInstanceAs (Decidable (_ ∨ _))

theorem printable_of_isNumberChar {c : Char} (h : IsNumberChar c) : 0x20 ≤ c.toNat := by
  have hmarks : ∀ c ∈ ['.', 'e', '-', '+'], 0x20 ≤ c.toNat := by simp
  obtain hdigit | hmark := h
  · exact Nat.le_trans (by decide) (Char.isDigit_iff_toNat.mp hdigit).1
  · exact hmarks c hmark

theorem isNumberChar_digitChars (n : Nat) : ∀ c ∈ digitChars n, IsNumberChar c :=
  fun _ h => .inl (isDigit_of_mem_digitChars h)

/-- The layout of a number has only characters of numbers. -/
theorem isNumberChar_layoutChars {layout : NumberLayout} {digits : List Char} {point : Int}
    (hdigits : ∀ c ∈ digits, IsNumberChar c) : ∀ c ∈ layout.chars digits point, IsNumberChar c := by
  have hzeros : ∀ n, ∀ c ∈ List.replicate n '0', IsNumberChar c := by
    intro n c hc
    rw [List.eq_of_mem_replicate hc]
    decide
  have hfraction : ∀ c ∈ ['.', '0'], IsNumberChar c := by simp [IsNumberChar]
  unfold NumberLayout.chars
  dsimp only
  split
  · split
    · exact List.forall_mem_append.mpr ⟨List.forall_mem_append.mpr ⟨hdigits, hzeros _⟩, hfraction⟩
    · split
      · refine List.forall_mem_append.mpr ⟨fun c hc => hdigits c (List.mem_of_mem_take hc), ?_⟩
        exact List.forall_mem_cons.mpr ⟨by decide, fun c hc => hdigits c (List.mem_of_mem_drop hc)⟩
      · refine List.forall_mem_append.mpr ⟨?_, hdigits⟩
        exact List.forall_mem_cons.mpr ⟨by decide,
          List.forall_mem_cons.mpr ⟨by decide, hzeros _⟩⟩
  · refine List.forall_mem_append.mpr ⟨List.forall_mem_append.mpr ⟨?_,
      List.forall_mem_cons.mpr ⟨by decide, ?_⟩⟩, isNumberChar_digitChars _⟩
    · split
      · exact fun _ h => absurd h List.not_mem_nil
      · exact hdigits
      · obtain ⟨hfirst, hrest⟩ := List.forall_mem_cons.mp hdigits
        exact List.forall_mem_cons.mpr ⟨hfirst, List.forall_mem_cons.mpr ⟨by decide, hrest⟩⟩
    · split
      · simp [IsNumberChar]
      · split <;> simp [IsNumberChar]

theorem layoutChars_ne_nil (layout : NumberLayout) (digits : List Char) (point : Int) :
    layout.chars digits point ≠ [] := by
  unfold NumberLayout.chars
  dsimp only
  split
  · split
    · simp
    · split <;> simp
  · simp

/-- Numbers are printed with characters of numbers. -/
theorem isNumberChar_numberChars (n : Number) : ∀ c ∈ numberChars n, IsNumberChar c := by
  cases n with
  | integer value fits =>
      rw [numberChars, integerChars]
      split
      · exact List.forall_mem_cons.mpr ⟨by decide, isNumberChar_digitChars _⟩
      · exact isNumberChar_digitChars _
  | double x =>
      have hsign : ∀ c ∈ (if x.isNegative then ['-'] else []), IsNumberChar c := by
        split <;> simp [IsNumberChar]
      have hzero : ∀ c ∈ ['0', '.', '0'], IsNumberChar c := by simp [IsNumberChar]
      rw [numberChars, Double.chars, Double.charsIn]
      dsimp only
      split
      · exact List.forall_mem_append.mpr ⟨hsign, hzero⟩
      · refine List.forall_mem_append.mpr ⟨hsign, isNumberChar_layoutChars fun c hc => ?_⟩
        rw [dropTrailingZeros, List.mem_reverse] at hc
        have hmem := (List.dropWhile_sublist _).mem hc
        exact isNumberChar_digitChars _ c (List.mem_reverse.mp hmem)

theorem numberChars_ne_nil (n : Number) : numberChars n ≠ [] := by
  cases n with
  | integer value fits =>
      rw [numberChars, integerChars]
      split
      · exact List.cons_ne_nil _ _
      · exact Nat.toDigits_ne_nil
  | double x =>
      rw [numberChars, Double.chars, Double.charsIn]
      dsimp only
      split
      · simp
      · exact fun h => layoutChars_ne_nil _ _ _ (List.append_eq_nil_iff.mp h).2

/-- Escaping leaves no control character. -/
theorem printable_of_mem_escapeChar {c : Char} : ∀ d ∈ escapeChar c, 0x20 ≤ d.toNat := by
  have hhex : ∀ n < 16, 0x20 ≤ (hexDigit n).toNat := by decide
  unfold escapeChar
  split
  case h_8 =>
    split
    · next hcontrol =>
        simp only [List.forall_mem_cons]
        exact ⟨by decide, by decide, by decide, by decide, hhex _ (by omega), hhex _ (by omega),
          fun _ h => absurd h List.not_mem_nil⟩
    · next hplain =>
        intro d hd
        rw [List.mem_singleton.mp hd]
        exact Nat.not_lt.mp hplain
  all_goals simp

/-- No token is printed with a control character. -/
theorem printable_of_mem_tokenChars {token : Token} :
    ∀ c ∈ token.chars escapeChar, 0x20 ≤ c.toNat := by
  cases token with
  | openArray | closeArray | openObject | closeObject | colon | comma | null => simp [Token.chars]
  | bool value => cases value <;> simp [Token.chars]
  | number n =>
      exact fun c hc => printable_of_isNumberChar (isNumberChar_numberChars n c hc)
  | string text =>
      intro c hc
      rw [Token.chars, List.mem_append, List.mem_cons, List.mem_singleton] at hc
      obtain (rfl | hc) | rfl := hc
      · decide
      · obtain ⟨_, _, hd⟩ := List.mem_flatMap.mp hc
        exact printable_of_mem_escapeChar c hd
      · decide

/-- **Compact texts** have no characters before the blank in them, so no new
lines either, whatever is in the value. -/
theorem printable_of_mem_compactChars {value : Json} {c : Char} (h : c ∈ value.compactChars) :
    0x20 ≤ c.toNat := by
  rw [compactChars_eq] at h
  obtain ⟨token, _, hc⟩ := List.mem_flatMap.mp h
  exact printable_of_mem_tokenChars c hc

/-- Compact texts are not empty. -/
theorem compactChars_ne_nil (value : Json) : value.compactChars ≠ [] := by
  cases value with
  | null => decide
  | bool value => cases value <;> decide
  | number n => exact numberChars_ne_nil n
  | string text => exact List.cons_ne_nil _ _
  | array items => cases items <;> exact List.cons_ne_nil _ _
  | object entries => cases entries <;> exact List.cons_ne_nil _ _

/-- A compact text is one line. -/
theorem lines_render_compact (value : Json) :
    lines (value.render .compact) = [value.render .compact] := by
  refine lines_of_not_mem fun h => ?_
  rw [render, String.toList_ofList] at h
  exact absurd (printable_of_mem_compactChars h) (by decide)

/-- No compact text is empty. -/
theorem empty_not_mem_map_render (values : List Json) : "" ∉ values.map (render .compact) := by
  intro h
  obtain ⟨value, _, hvalue⟩ := List.mem_map.mp h
  have hchars := congrArg String.toList hvalue
  rw [render, String.toList_ofList] at hchars
  exact compactChars_ne_nil value hchars

end Json

namespace CommandLine

namespace SampleCommand

/-! ## what is printed -/

/-- What is printed for a root type, for any meaning of filters. -/
def resultsOfWith (apply : String → Json → Except Filter.FilterError (List Json))
    (command : SampleCommand) (now : ClockReading) (table : ClassTable) (root : Ty) :
    Except RunError (List Json) :=
  let sample := command.sampleOf now table root
  match command.filter with
  | none => .ok [sample]
  | some filter => (apply filter sample).mapError (.filter root)

/-- What is printed for each root type. -/
def resultsWith (apply : String → Json → Except Filter.FilterError (List Json))
    (command : SampleCommand) (now : ClockReading) (table : ClassTable) :
    Except RunError (List (List Json)) := do
  (← command.rootTypes table).mapM (resultsOfWith apply command now table)

/-- The text to print, for any meaning of filters. -/
def textWith (apply : String → Json → Except Filter.FilterError (List Json))
    (command : SampleCommand) (now : ClockReading) (table : ClassTable) :
    Except RunError String := do
  return textOf command.style (← resultsWith apply command now table)

/-- With the filters of the command, this is what it prints. -/
theorem textWith_apply (command : SampleCommand) (now : ClockReading) (table : ClassTable) :
    textWith Filter.apply command now table = command.text now table := rfl

/-- The text of a root type is read as a type, and the results for it are these. -/
def PrintsFor (apply : String → Json → Except Filter.FilterError (List Json))
    (command : SampleCommand) (now : ClockReading) (table : ClassTable) (root : String)
    (ofRoot : List Json) : Prop :=
  ∃ ty, table.readRoot root = .ok ty ∧ resultsOfWith apply command now table ty = .ok ofRoot

/-- The lines for the results of one root type: without results an empty one. -/
def linesOf (ofRoot : List Json) : List String :=
  if ofRoot = [] then [""] else ofRoot.map (Json.render .compact)

/-! ## lines of results -/

section

variable {results : List (List Json)}

/-- The compact outputs of one root are the lines of their text. -/
theorem lines_ofRoot (ofRoot : List Json) :
    lines ("\n".intercalate (ofRoot.map (Json.render .compact))) = linesOf ofRoot := by
  cases ofRoot with
  | nil => decide
  | cons value more =>
      have hlines : ∀ values : List Json, (values.map (Json.render .compact)).flatMap lines =
          values.map (Json.render .compact) := by
        intro values
        simp only [List.flatMap_map, Json.lines_render_compact, ← List.map_eq_flatMap]
      rw [List.map_cons, lines_intercalate (List.cons_ne_nil _ _), ← List.map_cons, hlines]
      rfl

/-- The lines for each root type follow one another. -/
theorem lines_textOf (h : results ≠ []) :
    lines (textOf .compact results) = results.flatMap linesOf := by
  rw [textOf, lines_intercalate (List.map_eq_nil_iff.not.mpr h), List.flatMap_map]
  exact List.flatMap_congr fun ofRoot _ => lines_ofRoot ofRoot

/-- The lines are the texts of the results if no root type is without. -/
theorem flatMap_linesOf_eq_iff :
    results.flatMap linesOf = results.flatten.map (Json.render .compact) ↔
      ∀ ofRoot ∈ results, ofRoot ≠ [] := by
  constructor
  · rintro heq _ hmem rfl
    have hempty : "" ∈ results.flatMap linesOf :=
      List.mem_flatMap.mpr ⟨[], hmem, List.mem_singleton_self _⟩
    exact Json.empty_not_mem_map_render _ (heq ▸ hempty)
  · intro h
    rw [List.map_flatten, ← List.flatMap_def]
    exact List.flatMap_congr fun ofRoot hmem => if_neg (h ofRoot hmem)

end

section

variable {apply : String → Json → Except Filter.FilterError (List Json)} {command : SampleCommand}
  {now : ClockReading} {table : ClassTable} {text : String}

/-- A text is printed from the results of all root types, in order. -/
theorem exists_results_of_textWith (h : textWith apply command now table = .ok text) :
    ∃ results, List.Forall₂ (PrintsFor apply command now table) command.roots results ∧
      text = textOf command.style results := by
  obtain ⟨results, hresults, h⟩ := Except.bind_eq_ok_iff.mp h
  cases h
  obtain ⟨types, htypes, hresults⟩ := Except.bind_eq_ok_iff.mp hresults
  have hread : List.Forall₂ (fun root ty => table.readRoot root = .ok ty) command.roots types :=
    (Except.mapM_eq_ok_iff.mp htypes).imp fun _ _ h => Except.mapError_eq_ok_iff.mp h
  have hprints : ∀ ty ∈ types, ∀ root ∈ command.roots, ∀ ofRoot,
      table.readRoot root = .ok ty → resultsOfWith apply command now table ty = .ok ofRoot →
        ∃ found, PrintsFor apply command now table root found ∧ id found = ofRoot :=
    fun ty _ _ _ ofRoot hroot hofRoot => ⟨ofRoot, ⟨ty, hroot, hofRoot⟩, rfl⟩
  obtain ⟨found, hfound, rfl⟩ := exists_forall₂_of_forall₂ hread.flip
    (Except.mapM_eq_ok_iff.mp hresults) hprints
  exact ⟨found, hfound, by rw [List.map_id]⟩

/-- **The lines of compact results**, for any meaning of filters: each root
type in order has one line for each of its results in order, or an empty line
without any.  So the lines are the results if the filter yields something for
every root type, and only then. -/
theorem lines_of_textWith (hcompact : command.isCompact = true) (hroots : command.roots ≠ [])
    (htext : textWith apply command now table = .ok text) :
    ∃ results, List.Forall₂ (PrintsFor apply command now table) command.roots results ∧
      lines text = results.flatMap linesOf ∧
      (lines text = results.flatten.map (Json.render .compact) ↔
        ∀ ofRoot ∈ results, ofRoot ≠ []) := by
  obtain ⟨results, hresults, rfl⟩ := exists_results_of_textWith htext
  have hne : results ≠ [] := by
    rintro rfl
    exact hroots (List.forall₂_nil_right_iff.mp hresults)
  have hlines : lines (textOf command.style results) = results.flatMap linesOf := by
    rw [style, if_pos hcompact, lines_textOf hne]
  refine ⟨results, hresults, hlines, ?_⟩
  rw [hlines]
  exact flatMap_linesOf_eq_iff

end

/-! ## a root type without results -/

/-- Prints the items of the samples of a number and of a list of numbers. -/
def itemsCommand : SampleCommand where
  model := ⟨["model.json"], none⟩
  roots := ["int", "int[]"]
  filter := some ".[]?"
  placeholder := none
  isCompact := true

/-- The meaning of this filter: the items of a list, the values of an object,
and nothing for a scalar. -/
def spread (_filter : String) : Json → Except Filter.FilterError (List Json)
  | .array items => .ok items
  | .object entries => .ok (entries.map (·.2))
  | _ => .ok []

theorem resultsWith_items :
    resultsWith spread itemsCommand .evening ⟨[]⟩ = .ok [[], [.zero]] := by
  have hroot : ClassTable.readRoot ⟨[]⟩ "int" = .ok (.primitive "int") ∧
      ClassTable.readRoot ⟨[]⟩ "int[]" = .ok (.array (.primitive "int")) := by decide +kernel
  have hroots : itemsCommand.rootTypes ⟨[]⟩ =
      .ok [.primitive "int", .array (.primitive "int")] := by
    rw [rootTypes]
    show (do return [← (ClassTable.readRoot ⟨[]⟩ "int").mapError _,
      ← (ClassTable.readRoot ⟨[]⟩ "int[]").mapError _] : Except RunError (List Ty)) = _
    rw [hroot.1, hroot.2]
    rfl
  rw [resultsWith, hroots]
  rfl

/-- The number has no items: its line is empty, and is none of the results. -/
theorem lines_items :
    itemsCommand.isCompact = true ∧ itemsCommand.roots ≠ [] ∧
      textWith spread itemsCommand .evening ⟨[]⟩ = .ok "\n0" ∧
      ∃ results,
        List.Forall₂ (PrintsFor spread itemsCommand .evening ⟨[]⟩) ["int", "int[]"] results ∧
        ["", "0"] = results.flatMap linesOf ∧ [] ∈ results := by
  have htext : textWith spread itemsCommand .evening ⟨[]⟩ = .ok "\n0" := by
    rw [textWith, resultsWith_items]
    exact congrArg Except.ok (by decide +kernel)
  have hroots : itemsCommand.roots ≠ [] := List.cons_ne_nil _ _
  obtain ⟨results, hresults, hlines, hiff⟩ := lines_of_textWith rfl hroots htext
  have hsplit : lines "\n0" = ["", "0"] := by decide +kernel
  rw [hsplit] at hlines hiff
  refine ⟨rfl, hroots, htext, results, hresults, hlines, ?_⟩
  by_contra hall
  have htexts := hiff.mpr fun ofRoot hmem heq => hall (heq ▸ hmem)
  exact Json.empty_not_mem_map_render results.flatten (htexts ▸ List.mem_cons_self)

end SampleCommand

end CommandLine

end Exemplar
