import Exemplar.Json.Printer
import Exemplar.Proofs.Json.Meaning
import Exemplar.Proofs.Json.Tokens

/-!
# Exemplar.Proofs.Json.Printing

The compact text of a value is put together from the texts of its tokens,
without blanks.  How characters in strings are spelled is left open, as long as
they are read back.

* `Token.chars` — the text of a token;
* `spelled_tokens` — the texts of the tokens of a legible value spell them;
* `spelled_compactChars` — so does the compact text;
* `legible_of_distinctKeys` — a value that repeats no keys is legible if its
  doubles are read back.
-/

namespace Exemplar

/-! ## texts of tokens -/

/-- The text of a token, in which characters of strings are spelled in a given way. -/
def Token.chars (escape : Char → List Char) : Token → List Char
  | openArray => ['[']
  | closeArray => [']']
  | openObject => ['{']
  | closeObject => ['}']
  | colon => [':']
  | comma => [',']
  | null => "null".toList
  | bool true => "true".toList
  | bool false => "false".toList
  | number n => Json.numberChars n
  | string s => '"' :: s.toList.flatMap escape ++ ['"']

/-- The text of a legible number is read as that number. -/
theorem isText_numberChars {n : Number} (h : (Json.number n).Legible) :
    (Token.number n).IsText (Json.numberChars n) := by
  cases h with
  | integer value fits => exact isText_integer value fits
  | double hreads =>
      obtain ⟨stop, hread⟩ := hreads
      exact isText_number hread

/-! ## texts of values -/

/-- In front of other text, too, the texts of a value's tokens spell them. -/
def SpelledByTokens (escape : Char → List Char) (value : Json) : Prop :=
  ∀ {rest : List Char} {more : List Token}, NumberEnds rest → Spelled rest more →
    Spelled (value.tokens.flatMap (Token.chars escape) ++ rest) (value.tokens ++ more)

section

variable {escape : Char → List Char} {rest : List Char} {more : List Token}

/-- Items spell their tokens, with a comma before each. -/
theorem spelled_items {items : List Json} (hitems : ∀ item ∈ items, SpelledByTokens escape item)
    (hrest : Spelled rest more) :
    Spelled ((Json.moreItemTokens items).flatMap (Token.chars escape) ++ rest)
        (Json.moreItemTokens items ++ more) ∧
      NumberEnds ((Json.moreItemTokens items).flatMap (Token.chars escape) ++ rest) := by
  induction items with
  | nil => exact ⟨.token isText_closeArray trivial hrest, numberEnds_cons (by decide) rest⟩
  | cons item items ih =>
      obtain ⟨hitem, hitems⟩ := List.forall_mem_cons.mp hitems
      obtain ⟨hmore, hends⟩ := ih hitems
      simp only [Json.moreItemTokens, List.cons_append, List.flatMap_cons, List.flatMap_append,
        List.append_assoc]
      exact ⟨.token isText_comma trivial (hitem hends hmore), numberEnds_cons (by decide) _⟩

/-- An array is spelled by its tokens if its items are. -/
theorem spelled_array {items : List Json} (hitems : ∀ item ∈ items, SpelledByTokens escape item) :
    SpelledByTokens escape (.array items) := by
  intro rest more _ hrest
  cases items with
  | nil =>
      show Spelled (['['] ++ ([']'] ++ rest)) (.openArray :: .closeArray :: more)
      exact .token isText_openArray trivial (.token isText_closeArray trivial hrest)
  | cons item items =>
      obtain ⟨hitem, hitems⟩ := List.forall_mem_cons.mp hitems
      obtain ⟨hmore, hends⟩ := spelled_items hitems hrest
      simp only [Json.tokens, List.cons_append, List.flatMap_cons, List.flatMap_append,
        List.append_assoc]
      exact .token isText_openArray trivial (hitem hends hmore)

/-- A key, a colon and a value. -/
theorem spelled_entry (h : Escapes escape) (key : String) {value : Json}
    (hvalue : SpelledByTokens escape value) (hends : NumberEnds rest) (hrest : Spelled rest more) :
    Spelled (Token.chars escape (.string key) ++ (Token.chars escape .colon ++
        (value.tokens.flatMap (Token.chars escape) ++ rest)))
      (.string key :: .colon :: (value.tokens ++ more)) :=
  .token (isText_string h key) trivial (.token isText_colon trivial (hvalue hends hrest))

/-- Entries spell their tokens, with a comma before each. -/
theorem spelled_entries (h : Escapes escape) {entries : List (String × Json)}
    (hentries : ∀ entry ∈ entries, SpelledByTokens escape entry.2) (hrest : Spelled rest more) :
    Spelled ((Json.moreEntryTokens entries).flatMap (Token.chars escape) ++ rest)
        (Json.moreEntryTokens entries ++ more) ∧
      NumberEnds ((Json.moreEntryTokens entries).flatMap (Token.chars escape) ++ rest) := by
  induction entries with
  | nil => exact ⟨.token isText_closeObject trivial hrest, numberEnds_cons (by decide) rest⟩
  | cons entry entries ih =>
      obtain ⟨key, value⟩ := entry
      obtain ⟨hvalue, hentries⟩ := List.forall_mem_cons.mp hentries
      obtain ⟨hmore, hends⟩ := ih hentries
      simp only [Json.moreEntryTokens, List.cons_append, List.flatMap_cons, List.flatMap_append,
        List.append_assoc]
      exact ⟨.token isText_comma trivial (spelled_entry h key hvalue hends hmore),
        numberEnds_cons (by decide) _⟩

/-- An object is spelled by its tokens if the values in it are. -/
theorem spelled_object (h : Escapes escape) {entries : List (String × Json)}
    (hentries : ∀ entry ∈ entries, SpelledByTokens escape entry.2) :
    SpelledByTokens escape (.object entries) := by
  intro rest more _ hrest
  cases entries with
  | nil =>
      show Spelled (['{'] ++ (['}'] ++ rest)) (.openObject :: .closeObject :: more)
      exact .token isText_openObject trivial (.token isText_closeObject trivial hrest)
  | cons entry entries =>
      obtain ⟨key, value⟩ := entry
      obtain ⟨hvalue, hentries⟩ := List.forall_mem_cons.mp hentries
      obtain ⟨hmore, hends⟩ := spelled_entries h hentries hrest
      simp only [Json.tokens, List.cons_append, List.flatMap_cons, List.flatMap_append,
        List.append_assoc]
      exact .token isText_openObject trivial (spelled_entry h key hvalue hends hmore)

/-- Legible values are spelled so. -/
theorem spelledByTokens_of_legible (h : Escapes escape) {value : Json} (hvalue : value.Legible) :
    SpelledByTokens escape value := by
  induction hvalue with
  | null =>
      intro rest more _ hrest
      exact .token isText_null trivial hrest
  | bool value =>
      intro rest more _ hrest
      cases value with
      | true => exact .token isText_true trivial hrest
      | false => exact .token isText_false trivial hrest
  | integer value fits =>
      intro rest more hends hrest
      have htext := isText_numberChars (.integer value fits)
      simp only [Json.tokens, List.flatMap_singleton]
      exact .token htext hends hrest
  | double hreads =>
      intro rest more hends hrest
      have htext := isText_numberChars (.double hreads)
      simp only [Json.tokens, List.flatMap_singleton]
      exact .token htext hends hrest
  | string text =>
      intro rest more _ hrest
      simp only [Json.tokens, List.flatMap_singleton]
      exact .token (isText_string h text) trivial hrest
  | array _ ih => exact spelled_array ih
  | object _ _ ih => exact spelled_object h ih

/-- **Texts of legible values** are spelled by their tokens. -/
theorem spelled_tokens (h : Escapes escape) {value : Json} (hvalue : value.Legible) :
    Spelled (value.tokens.flatMap (Token.chars escape)) value.tokens := by
  have hspelled := spelledByTokens_of_legible h hvalue numberEnds_nil .nil
  rw [List.append_nil, List.append_nil] at hspelled
  exact hspelled

end

namespace Json

/-! ## the compact text -/

/-- Every character is read back from what is printed for it. -/
theorem escapes_escapeChar : Escapes escapeChar where
  ne_nil c := by
    unfold escapeChar
    split
    case h_8 => split <;> simp
    all_goals simp
  read c fuel done offset rest := by
    unfold escapeChar
    split
    case h_8 hquote hslash _ _ _ _ _ =>
      split
      · next hcontrol => exact ⟨_, readString_code hcontrol⟩
      · next hcontrol => exact ⟨_, readString_plain hquote hslash hcontrol⟩
    all_goals exact ⟨_, readString_letter (by decide) rfl⟩

mutual

/-- **Compact texts** are the texts of the tokens, one after the other. -/
theorem compactChars_eq : (value : Json) →
    value.compactChars = value.tokens.flatMap (Token.chars escapeChar)
  | null | bool true | bool false => by simp [compactChars, tokens, Token.chars]
  | number n => by simp [compactChars, tokens, Token.chars]
  | string s => by simp [compactChars, tokens, Token.chars, stringChars]
  | array [] | object [] => by simp [compactChars, tokens, Token.chars]
  | array (item :: rest) => by
      simp [compactChars, tokens, Token.chars, compactChars_eq item, compactItems_eq rest]
  | object ((key, value) :: rest) => by
      simp [compactChars, tokens, Token.chars, stringChars, compactChars_eq value,
        compactEntries_eq rest]

theorem compactItems_eq : (items : List Json) →
    compactItems items = (moreItemTokens items).flatMap (Token.chars escapeChar)
  | [] => by simp [compactItems, moreItemTokens, Token.chars]
  | item :: rest => by
      simp [compactItems, moreItemTokens, Token.chars, compactChars_eq item, compactItems_eq rest]

theorem compactEntries_eq : (entries : List (String × Json)) →
    compactEntries entries = (moreEntryTokens entries).flatMap (Token.chars escapeChar)
  | [] => by simp [compactEntries, moreEntryTokens, Token.chars]
  | (key, value) :: rest => by
      simp [compactEntries, moreEntryTokens, Token.chars, stringChars, compactChars_eq value,
        compactEntries_eq rest]

end

/-- The compact text of a legible value is spelled by its tokens. -/
theorem spelled_compactChars {value : Json} (h : value.Legible) :
    Spelled value.compactChars value.tokens := by
  rw [compactChars_eq]
  exact spelled_tokens escapes_escapeChar h

/-! ## doubles -/

mutual

/-- The doubles in a value. -/
def doubles : Json → List Double
  | number (.double x) => [x]
  | array items => doublesItems items
  | object entries => doublesEntries entries
  | _ => []

/-- The doubles in the items. -/
def doublesItems : List Json → List Double
  | [] => []
  | item :: rest => item.doubles ++ doublesItems rest

/-- The doubles in the values of the entries. -/
def doublesEntries : List (String × Json) → List Double
  | [] => []
  | (_, value) :: rest => value.doubles ++ doublesEntries rest

end

/-- The doubles of an item are among those of the items. -/
theorem mem_doublesItems {items : List Json} {item : Json} (hitem : item ∈ items) {x : Double}
    (h : x ∈ item.doubles) : x ∈ doublesItems items := by
  induction items with
  | nil => contradiction
  | cons first rest ih =>
      rw [doublesItems, List.mem_append]
      obtain rfl | hitem := List.mem_cons.mp hitem
      · exact .inl h
      · exact .inr (ih hitem)

/-- The doubles of a value are among those of the entries. -/
theorem mem_doublesEntries {entries : List (String × Json)} {entry : String × Json}
    (hentry : entry ∈ entries) {x : Double} (h : x ∈ entry.2.doubles) :
    x ∈ doublesEntries entries := by
  induction entries with
  | nil => contradiction
  | cons first rest ih =>
      rw [doublesEntries, List.mem_append]
      obtain rfl | hentry := List.mem_cons.mp hentry
      · exact .inl h
      · exact .inr (ih hentry)

/-- A value that repeats no keys is legible if its doubles are read back. -/
theorem legible_of_distinctKeys {value : Json} (h : value.DistinctKeys)
    (hdoubles : ∀ x ∈ value.doubles, x.ReadsBack) : value.Legible := by
  induction h with
  | null => exact .null
  | bool value => exact .bool value
  | number n =>
      cases n with
      | integer value fits => exact .integer value fits
      | double x => exact .double (hdoubles x (List.mem_singleton_self x))
  | string text => exact .string text
  | array _ ih =>
      exact .array fun item hitem =>
        ih item hitem fun x hx => hdoubles x (mem_doublesItems hitem hx)
  | object hnodup _ ih =>
      exact .object hnodup fun entry hentry =>
        ih entry hentry fun x hx => hdoubles x (mem_doublesEntries hentry hx)

end Json

end Exemplar
