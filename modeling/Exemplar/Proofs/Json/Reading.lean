import Exemplar.Proofs.Json.Meaning
import Exemplar.Proofs.Json.Tokens

/-!
# Exemplar.Proofs.Json.Reading

Reading the tokens of a value.  The reader keeps the open arrays and objects on
a stack, so what it does with a value is said for every stack and for
everything that stands after the value: it goes on with a part that mirrors the
value, or, if the brackets do not fit on the stack, it ends with a tree that
means nothing.

* `Reads` — the reader at a value;
* `reads_of_legible` — every legible value is read so;
* `parse_mirrors` — the tree of a text;
* `read_eq_ok`, `read_eq_error` — a text whose brackets may be open at once, and
  one whose brackets may not.
-/

namespace Exemplar

namespace Node

/-! ## trees without a value -/

/-- Items with a part that has no value have none. -/
theorem itemsToJson_of_fails {part : Node} (h : part.Fails) {parts : List Node}
    (hmem : part ∈ parts) (path : Path) (position : Nat) :
    ∃ e, itemsToJson path position parts = .error e := by
  induction parts generalizing position with
  | nil => contradiction
  | cons first rest ih =>
      rw [itemsToJson]
      cases hfirst : first.toJson (.index position :: path) with
      | error e => exact ⟨e, rfl⟩
      | ok value =>
          obtain rfl | hmem := List.mem_cons.mp hmem
          · obtain ⟨e, he⟩ := h (.index position :: path)
            rw [he] at hfirst
            contradiction
          · obtain ⟨e, he⟩ := ih hmem (position + 1)
            exact ⟨e, by rw [he]; rfl⟩

/-- Entries with a part that has no value have none. -/
theorem entriesToJson_of_fails {part : Key × Node} (h : part.2.Fails) {parts : List (Key × Node)}
    (hmem : part ∈ parts) (path : Path) : ∃ e, entriesToJson path parts = .error e := by
  induction parts with
  | nil => contradiction
  | cons first rest ih =>
      obtain ⟨key, node⟩ := first
      rw [entriesToJson]
      cases hfirst : node.toJson (.key key.name :: path) with
      | error e => exact ⟨e, rfl⟩
      | ok value =>
          obtain rfl | hmem := List.mem_cons.mp hmem
          · obtain ⟨e, he⟩ := h (.key key.name :: path)
            rw [he] at hfirst
            contradiction
          · obtain ⟨e, he⟩ := ih hmem
            exact ⟨e, by rw [he]; rfl⟩

/-- Whatever is open around a part without a value has none. -/
theorem fails_unwind {part : Node} (h : part.Fails) (stack : List Frame) :
    (unwind stack part).Fails := by
  induction stack generalizing part with
  | nil => exact h
  | cons frame stack ih =>
      cases frame with
      | array start done =>
          refine ih fun path => ?_
          have hmem : part ∈ (part :: done).reverse := List.mem_reverse.mpr List.mem_cons_self
          obtain ⟨e, he⟩ := itemsToJson_of_fails h hmem path 0
          exact ⟨e, by rw [toJson, he]; rfl⟩
      | object start done key =>
          refine ih fun path => ?_
          have hmem : (key, part) ∈ ((key, part) :: done).reverse :=
            List.mem_reverse.mpr List.mem_cons_self
          obtain ⟨e, he⟩ := entriesToJson_of_fails h hmem path
          exact ⟨e, by rw [toJson, he]; rfl⟩

/-! ## reading a value -/

/-- At the tokens of a value, the reader goes on after a part that mirrors the
value; if that needs too many open brackets, it ends without a value. -/
structure Reads (value : Json) : Prop where
  resumes : ∀ (limit : Nat) (stack : List Frame) {after : List Token} {tokens : Lexemes},
    Lexemes.Of (value.tokens ++ after) tokens → stack.length + value.nesting ≤ limit →
      ∃ part rest, Lexemes.Of after rest ∧ part.Mirrors value ∧
        readValue limit stack tokens = resume limit stack part rest
  fails : ∀ (limit : Nat) (stack : List Frame) {after : List Token} {tokens : Lexemes},
    Lexemes.Of (value.tokens ++ after) tokens → stack.length ≤ limit →
      limit < stack.length + value.nesting → (readValue limit stack tokens).Fails

/-- A scalar is read from its token. -/
theorem reads_scalar {value : Json} {token : Token} {scalar : Scalar}
    (htokens : value.tokens = [token]) (hnesting : value.nesting = 0)
    (hread : ∀ limit stack start stop rest, readValue limit stack (.cons token start stop rest) =
      resume limit stack (.scalar scalar start stop) rest)
    (hscalar : scalar.toJson = value) : Reads value where
  resumes limit stack _ _ h _ := by
    rw [htokens] at h
    cases h with
    | cons start stop h =>
        exact ⟨_, _, h, ⟨fun _ => congrArg _ hscalar, .scalar scalar start stop⟩,
          hread _ _ _ _ _⟩
  fails limit stack _ _ _ hstack hroom := by omega

section

variable {limit start : Nat} {stack : List Frame} {node : Node} {after : List Token}
  {tokens : Lexemes}

/-! ### arrays -/

section

variable {done : List Node} {item : Json} {items values : List Json}

/-- The opening bracket before an item. -/
theorem readValue_array (h : Lexemes.Of ((Json.array (item :: items)).tokens ++ after) tokens)
    (hroom : stack.length < limit) :
    ∃ start rest, Lexemes.Of (item.tokens ++ (Json.moreItemTokens items ++ after)) rest ∧
      readValue limit stack tokens = readValue limit (.array start [] :: stack) rest := by
  simp only [Json.tokens, List.cons_append, List.append_assoc] at h
  obtain ⟨token, _, htokens, htoken⟩ := item.exists_tokens_eq_cons
  cases h with
  | cons start stop h =>
      refine ⟨start, _, h, ?_⟩
      rw [htokens] at h
      cases h with
      | cons _ _ h =>
          rw [readValue, if_neg (Nat.not_le.mpr hroom)]
          · rintro _ ⟨⟩
          · rintro _ _ _ ⟨⟩
            contradiction

/-- The comma before an item. -/
theorem resume_array (h : Lexemes.Of (Json.moreItemTokens (item :: items) ++ after) tokens) :
    ∃ rest, Lexemes.Of (item.tokens ++ (Json.moreItemTokens items ++ after)) rest ∧
      resume limit (.array start done :: stack) node tokens =
        readValue limit (.array start (node :: done) :: stack) rest := by
  simp only [Json.moreItemTokens, List.cons_append, List.append_assoc] at h
  obtain ⟨token, _, htokens, htoken⟩ := item.exists_tokens_eq_cons
  cases h with
  | cons _ _ h =>
      refine ⟨_, h, ?_⟩
      rw [htokens] at h
      cases h with
      | cons _ _ h =>
          rw [resume]
          · rintro _ ⟨⟩
          · rintro _ _ _ ⟨⟩
            contradiction

/-- After an item, the reader takes the others and goes on after the array. -/
theorem resumes_items (hitems : ∀ item ∈ items, Reads item)
    (hdone : List.Forall₂ Mirrors (node :: done).reverse values)
    (h : Lexemes.Of (Json.moreItemTokens items ++ after) tokens)
    (hroom : stack.length + 1 + Json.nestingItems items ≤ limit) :
    ∃ part rest, Lexemes.Of after rest ∧ part.Mirrors (.array (values ++ items)) ∧
      resume limit (.array start done :: stack) node tokens = resume limit stack part rest := by
  induction items generalizing node done values tokens with
  | nil =>
      cases h with
      | cons _ stop h =>
          refine ⟨_, _, h, ?_, rfl⟩
          rw [List.append_nil]
          exact array_mirrors hdone start stop
  | cons item items ih =>
      rw [Json.nestingItems] at hroom
      have hfits : stack.length + 1 + item.nesting ≤ limit := by omega
      obtain ⟨hitem, hitems⟩ := List.forall_mem_cons.mp hitems
      obtain ⟨_, h, hresume⟩ := resume_array h
      obtain ⟨part, _, h, hpart, hread⟩ := hitem.resumes limit
        (.array start (node :: done) :: stack) h hfits
      have hnext : List.Forall₂ Mirrors (part :: node :: done).reverse (values ++ [item]) := by
        rw [List.reverse_cons]
        exact List.rel_append hdone (.cons hpart .nil)
      rw [hresume, hread, List.append_cons]
      exact ih hitems hnext h (by omega)

/-- Items that need too many open brackets end the reading without a value. -/
theorem fails_items (hitems : ∀ item ∈ items, Reads item)
    (h : Lexemes.Of (Json.moreItemTokens items ++ after) tokens) (hstack : stack.length < limit)
    (hroom : limit < stack.length + 1 + Json.nestingItems items) :
    (resume limit (.array start done :: stack) node tokens).Fails := by
  induction items generalizing node done tokens with
  | nil =>
      rw [Json.nestingItems] at hroom
      omega
  | cons item items ih =>
      rw [Json.nestingItems] at hroom
      obtain ⟨hitem, hitems⟩ := List.forall_mem_cons.mp hitems
      obtain ⟨_, h, hresume⟩ := resume_array h
      rw [hresume]
      -- the items before do not matter: one part without a value is enough
      by_cases hfits : stack.length + 1 + item.nesting ≤ limit
      · obtain ⟨part, _, h, _, hread⟩ := hitem.resumes limit
          (.array start (node :: done) :: stack) h hfits
        rw [hread]
        exact ih hitems h (by omega)
      · exact hitem.fails limit _ h hstack (by rw [List.length_cons]; omega)

/-- There is no room for another bracket. -/
theorem fails_openArray {more : List Token} (h : Lexemes.Of (.openArray :: more) tokens)
    (hroom : limit ≤ stack.length) : (readValue limit stack tokens).Fails := by
  cases h with
  | cons start stop h =>
      rw [readValue.eq_def]
      simp only [if_pos hroom]
      exact fails_unwind (fun _ => ⟨_, rfl⟩) stack

/-- An array is read if its items are. -/
theorem reads_array (hitems : ∀ item ∈ items, Reads item) : Reads (.array items) where
  resumes limit stack after tokens h hroom := by
    rw [Json.nesting] at hroom
    have hroom' : stack.length < limit := by omega
    cases items with
    | nil =>
        cases h with
        | cons start _ h =>
            cases h with
            | cons _ stop h =>
                refine ⟨_, _, h, array_mirrors .nil start stop, ?_⟩
                rw [readValue, if_neg (Nat.not_le.mpr hroom')]
    | cons item items =>
        rw [Json.nestingItems] at hroom
        have hfits : stack.length + 1 + item.nesting ≤ limit := by omega
        obtain ⟨hitem, hitems⟩ := List.forall_mem_cons.mp hitems
        obtain ⟨start, _, h, hopen⟩ := readValue_array h hroom'
        obtain ⟨part, _, h, hpart, hread⟩ := hitem.resumes limit
          (.array start [] :: stack) h hfits
        have hdone : List.Forall₂ Mirrors [part].reverse [item] := .cons hpart .nil
        rw [hopen, hread]
        exact resumes_items hitems hdone h (by omega)
  fails limit stack after tokens h hstack hroom := by
    rw [Json.nesting] at hroom
    by_cases hroom' : stack.length < limit
    · cases items with
      | nil =>
          rw [Json.nestingItems] at hroom
          omega
      | cons item items =>
          rw [Json.nestingItems] at hroom
          obtain ⟨hitem, hitems⟩ := List.forall_mem_cons.mp hitems
          obtain ⟨start, _, h, hopen⟩ := readValue_array h hroom'
          rw [hopen]
          by_cases hfits : stack.length + 1 + item.nesting ≤ limit
          · obtain ⟨part, _, h, _, hread⟩ := hitem.resumes limit
              (.array start [] :: stack) h hfits
            rw [hread]
            exact fails_items hitems h hroom' (by omega)
          · exact hitem.fails limit _ h hroom' (by rw [List.length_cons]; omega)
    · cases items <;> exact fails_openArray h (Nat.not_lt.mp hroom')

end

/-! ### objects -/

section

variable {done : List (Key × Node)} {key : Key} {name : String} {value : Json}
  {entries values : List (String × Json)}

/-- A key and its colon. -/
theorem readKey_colon {more : List Token} {separator : Nat} {unread : Lexemes}
    (h : Lexemes.Of (.string name :: .colon :: more) tokens) :
    ∃ key rest, key.name = name ∧ Lexemes.Of more rest ∧
      readKey limit stack start done separator unread tokens =
        readValue limit (.object start done key :: stack) rest := by
  cases h with
  | cons _ stop h =>
      cases h with
      | cons _ _ h => exact ⟨_, _, rfl, h, rfl⟩

/-- The opening brace before an entry. -/
theorem readValue_object
    (h : Lexemes.Of ((Json.object ((name, value) :: entries)).tokens ++ after) tokens)
    (hroom : stack.length < limit) :
    ∃ start key rest, key.name = name ∧
      Lexemes.Of (value.tokens ++ (Json.moreEntryTokens entries ++ after)) rest ∧
      readValue limit stack tokens = readValue limit (.object start [] key :: stack) rest := by
  simp only [Json.tokens, List.cons_append, List.append_assoc] at h
  cases h with
  | @cons _ _ rest start stop h =>
      have hopen : readValue limit stack (.cons .openObject start stop rest) =
          readKey limit stack start [] start rest rest := by
        cases h with
        | cons =>
            rw [readValue, if_neg (Nat.not_le.mpr hroom)]
            · rintro _ ⟨⟩
            · rintro _ _ _ ⟨⟩
      rw [hopen]
      exact ⟨start, readKey_colon h⟩

/-- The comma before an entry. -/
theorem resume_object
    (h : Lexemes.Of (Json.moreEntryTokens ((name, value) :: entries) ++ after) tokens) :
    ∃ next rest, next.name = name ∧
      Lexemes.Of (value.tokens ++ (Json.moreEntryTokens entries ++ after)) rest ∧
      resume limit (.object start done key :: stack) node tokens =
        readValue limit (.object start ((key, node) :: done) next :: stack) rest := by
  simp only [Json.moreEntryTokens, List.cons_append, List.append_assoc] at h
  cases h with
  | @cons _ _ rest comma stop h =>
      have hcomma : resume limit (.object start done key :: stack) node
          (.cons .comma comma stop rest) =
            readKey limit stack start ((key, node) :: done) comma (.cons .comma comma stop rest)
              rest := by
        cases h with
        | cons =>
            rw [resume]
            · rintro _ ⟨⟩
            · rintro _ _ _ ⟨⟩
      rw [hcomma]
      exact readKey_colon h

/-- After an entry, the reader takes the others and goes on after the object. -/
theorem resumes_entries (hentries : ∀ entry ∈ entries, Reads entry.2)
    (hdone : List.Forall₂ EntryMirrors ((key, node) :: done).reverse values)
    (hnodup : ((values ++ entries).map (·.1)).Nodup)
    (h : Lexemes.Of (Json.moreEntryTokens entries ++ after) tokens)
    (hroom : stack.length + 1 + Json.nestingEntries entries ≤ limit) :
    ∃ part rest, Lexemes.Of after rest ∧ part.Mirrors (.object (values ++ entries)) ∧
      resume limit (.object start done key :: stack) node tokens =
        resume limit stack part rest := by
  induction entries generalizing node done key values tokens with
  | nil =>
      cases h with
      | cons _ stop h =>
          refine ⟨_, _, h, ?_, rfl⟩
          rw [List.append_nil] at hnodup ⊢
          exact object_mirrors hdone hnodup start stop
  | cons entry entries ih =>
      obtain ⟨name, value⟩ := entry
      rw [Json.nestingEntries] at hroom
      have hfits : stack.length + 1 + value.nesting ≤ limit := by omega
      obtain ⟨hvalue, hentries⟩ := List.forall_mem_cons.mp hentries
      obtain ⟨next, _, hname, h, hresume⟩ := resume_object h
      obtain ⟨part, _, h, hpart, hread⟩ := hvalue.resumes limit
        (.object start ((key, node) :: done) next :: stack) h hfits
      have hnext : List.Forall₂ EntryMirrors ((next, part) :: (key, node) :: done).reverse
          (values ++ [(name, value)]) := by
        rw [List.reverse_cons]
        exact List.rel_append hdone (.cons ⟨hname, hpart⟩ .nil)
      rw [List.append_cons] at hnodup ⊢
      rw [hresume, hread]
      exact ih hentries hnext hnodup h (by omega)

/-- Entries that need too many open brackets end the reading without a value. -/
theorem fails_entries (hentries : ∀ entry ∈ entries, Reads entry.2)
    (h : Lexemes.Of (Json.moreEntryTokens entries ++ after) tokens) (hstack : stack.length < limit)
    (hroom : limit < stack.length + 1 + Json.nestingEntries entries) :
    (resume limit (.object start done key :: stack) node tokens).Fails := by
  induction entries generalizing node done key tokens with
  | nil =>
      rw [Json.nestingEntries] at hroom
      omega
  | cons entry entries ih =>
      obtain ⟨name, value⟩ := entry
      rw [Json.nestingEntries] at hroom
      obtain ⟨hvalue, hentries⟩ := List.forall_mem_cons.mp hentries
      obtain ⟨next, _, _, h, hresume⟩ := resume_object h
      rw [hresume]
      by_cases hfits : stack.length + 1 + value.nesting ≤ limit
      · obtain ⟨part, _, h, _, hread⟩ := hvalue.resumes limit
          (.object start ((key, node) :: done) next :: stack) h hfits
        rw [hread]
        exact ih hentries h (by omega)
      · exact hvalue.fails limit _ h hstack (Nat.not_le.mp hfits)

/-- There is no room for another brace. -/
theorem fails_openObject {more : List Token} (h : Lexemes.Of (.openObject :: more) tokens)
    (hroom : limit ≤ stack.length) : (readValue limit stack tokens).Fails := by
  cases h with
  | cons start stop h =>
      rw [readValue.eq_def]
      simp only [if_pos hroom]
      exact fails_unwind (fun _ => ⟨_, rfl⟩) stack

/-- An object that repeats no key is read if its values are. -/
theorem reads_object (hnodup : (entries.map (·.1)).Nodup)
    (hentries : ∀ entry ∈ entries, Reads entry.2) : Reads (.object entries) where
  resumes limit stack after tokens h hroom := by
    rw [Json.nesting] at hroom
    have hroom' : stack.length < limit := by omega
    cases entries with
    | nil =>
        cases h with
        | cons start _ h =>
            cases h with
            | cons _ stop h =>
                refine ⟨_, _, h, object_mirrors .nil hnodup start stop, ?_⟩
                rw [readValue, if_neg (Nat.not_le.mpr hroom')]
    | cons entry entries =>
        obtain ⟨name, value⟩ := entry
        rw [Json.nestingEntries] at hroom
        have hfits : stack.length + 1 + value.nesting ≤ limit := by omega
        obtain ⟨hvalue, hentries⟩ := List.forall_mem_cons.mp hentries
        obtain ⟨start, key, _, hname, h, hopen⟩ := readValue_object h hroom'
        obtain ⟨part, _, h, hpart, hread⟩ := hvalue.resumes limit
          (.object start [] key :: stack) h hfits
        have hdone : List.Forall₂ EntryMirrors [(key, part)].reverse [(name, value)] :=
          .cons ⟨hname, hpart⟩ .nil
        rw [hopen, hread]
        exact resumes_entries hentries hdone hnodup h (by omega)
  fails limit stack after tokens h hstack hroom := by
    rw [Json.nesting] at hroom
    by_cases hroom' : stack.length < limit
    · cases entries with
      | nil =>
          rw [Json.nestingEntries] at hroom
          omega
      | cons entry entries =>
          obtain ⟨name, value⟩ := entry
          rw [Json.nestingEntries] at hroom
          obtain ⟨hvalue, hentries⟩ := List.forall_mem_cons.mp hentries
          obtain ⟨start, key, _, _, h, hopen⟩ := readValue_object h hroom'
          rw [hopen]
          by_cases hfits : stack.length + 1 + value.nesting ≤ limit
          · obtain ⟨part, _, h, _, hread⟩ := hvalue.resumes limit
              (.object start [] key :: stack) h hfits
            rw [hread]
            exact fails_entries hentries h hroom' (by omega)
          · exact hvalue.fails limit _ h hroom' (Nat.not_le.mp hfits)
    · cases entries <;> exact fails_openObject h (Nat.not_lt.mp hroom')

end

end

/-- **Every legible value** is read so. -/
theorem reads_of_legible {value : Json} (h : value.Legible) : Reads value := by
  -- the stack is not fixed in `Reads`, so the hypotheses fit the inner values
  induction h with
  | null => exact reads_scalar rfl rfl (fun _ _ _ _ _ => rfl) rfl
  | bool => exact reads_scalar rfl rfl (fun _ _ _ _ _ => rfl) rfl
  | integer => exact reads_scalar rfl rfl (fun _ _ _ _ _ => rfl) rfl
  | double => exact reads_scalar rfl rfl (fun _ _ _ _ _ => rfl) rfl
  | string => exact reads_scalar rfl rfl (fun _ _ _ _ _ => rfl) rfl
  | array _ ih => exact reads_array ih
  | object hnodup _ ih => exact reads_object hnodup ih

end Node

/-! ## reading a text -/

namespace Json

variable {value : Json} {chars : List Char}

/-- The tree of a text that is spelled by the tokens of a legible value mirrors
this value, if its brackets may be open at once. -/
theorem parse_mirrors (h : value.Legible) (hchars : Spelled chars value.tokens)
    (hnesting : value.nesting ≤ nestingLimit) :
    (Node.parse nestingLimit (Lexemes.scan chars)).Mirrors value := by
  have hscan := scan_of_spelled hchars
  rw [← List.append_nil value.tokens] at hscan
  have hroom : 0 + value.nesting ≤ nestingLimit := by omega
  obtain ⟨part, rest, _, hpart, hread⟩ :=
    (Node.reads_of_legible h).resumes nestingLimit [] hscan hroom
  rw [Node.parse, hread, Node.resume.eq_def]
  exact hpart

/-- **Reading**: a text that is spelled by the tokens of a legible value is
read as this value, if its brackets may be open at once. -/
theorem read_eq_ok (h : value.Legible) (hchars : Spelled chars value.tokens)
    (hnesting : value.nesting ≤ nestingLimit) : read (String.ofList chars) = .ok value := by
  have hmeans := (parse_mirrors h hchars hnesting).means
  simp only [read, String.toList_ofList, hmeans []]
  rfl

/-- Otherwise it is not read at all. -/
theorem read_eq_error (h : value.Legible) (hchars : Spelled chars value.tokens)
    (hnesting : nestingLimit < value.nesting) :
    ∃ e, read (String.ofList chars) = .error e := by
  have hscan := scan_of_spelled hchars
  rw [← List.append_nil value.tokens] at hscan
  have hroom : nestingLimit < 0 + value.nesting := by omega
  obtain ⟨e, he⟩ :=
    (Node.reads_of_legible h).fails nestingLimit [] hscan (Nat.zero_le nestingLimit) hroom []
  exact ⟨e.inText chars, by simp only [read, String.toList_ofList, Node.parse, he]; rfl⟩

end Json

end Exemplar
