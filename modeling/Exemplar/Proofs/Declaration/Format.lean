import Exemplar.Declaration.Format
import Exemplar.Proofs.Json.Meaning

/-!
# Exemplar.Proofs.Declaration.Format

When the readers of records and of their parts succeed, and with what.

* `readFields_cons_eq_ok_iff`, `nodup_of_readFields` — the entries of an object,
  whose keys must be different from each other;
* `read_object_eq_ok_iff` — a record that stands as an object;
* `readElements_cons_nil_eq_ok_iff`, `readElements_cons_cons_eq_ok_iff` — a record
  that stands as an array, whose elements are its fields in order.
-/

namespace Exemplar

/-! ## scalars -/

/-- A string is read from a string alone. -/
theorem readText_eq_ok_iff {path : Path} {node : Node} {text : String} :
    readText path node = .ok text ↔ ∃ start stop, node = .scalar (.string text) start stop := by
  constructor
  · intro h
    unfold readText at h
    split at h
    · cases h
      exact ⟨_, _, rfl⟩
    · contradiction
  · rintro ⟨start, stop, rfl⟩
    rfl

/-- A truth value is read from a truth value alone. -/
theorem readBool_eq_ok_iff {path : Path} {node : Node} {value : Bool} :
    readBool path node = .ok value ↔ ∃ start stop, node = .scalar (.bool value) start stop := by
  constructor
  · intro h
    unfold readBool at h
    split at h
    · cases h
      exact ⟨_, _, rfl⟩
    · contradiction
  · rintro ⟨start, stop, rfl⟩
    rfl

/-- A string is the value of no other trees. -/
theorem readText_eq_ok_iff_means {path : Path} {node : Node} {text : String} :
    readText path node = .ok text ↔ node.Means (.string text) := by
  rw [readText_eq_ok_iff]
  exact (@Node.means_scalar_iff node (.string text)).symm

/-- The value, unless it is null. -/
def Json.nonNull? : Json → Option Json
  | .null => none
  | value => some value

/-- Any value is read, and null counts as none. -/
theorem readOptional_eq_ok_iff {path : Path} {node : Node} {x : Option Json} :
    readOptional path node = .ok x ↔ ∃ value, node.Means value ∧ value.nonNull? = x := by
  unfold readOptional
  split
  · next start stop =>
      constructor
      · intro h
        exact ⟨.null, fun _ => rfl, Except.ok.inj h⟩
      · rintro ⟨value, hmeans, rfl⟩
        obtain rfl := Node.scalar_means_iff.mp hmeans
        rfl
  · next hnull =>
      have hsome : ∀ {value}, node.Means value → value.nonNull? = some value := by
        intro value hmeans
        cases value with
        | null =>
            obtain ⟨start, stop, rfl⟩ :=
              Node.means_scalar_iff.mp (show node.Means Scalar.null.toJson from hmeans)
            exact absurd rfl (hnull start stop)
        | _ => rfl
      constructor
      · intro h
        cases hread : node.toJson path with
        | error e =>
            rw [hread] at h
            contradiction
        | ok value =>
            rw [hread] at h
            have hmeans := Node.means_of_toJson hread
            exact ⟨value, hmeans, (hsome hmeans).trans (Except.ok.inj h)⟩
      · rintro ⟨value, hmeans, rfl⟩
        rw [hmeans path, hsome hmeans]
        rfl

/-! ## lists -/

section

variable {α : Type} {read : NodeReader α} {path : Path}

/-- Items are read one after the other. -/
theorem readItems_cons_eq_ok_iff {position : Nat} {item : Node} {items : List Node} {xs : List α} :
    readItems read path position (item :: items) = .ok xs ↔
      ∃ y, read (.index position :: path) item = .ok y ∧
        ∃ ys, readItems read path (position + 1) items = .ok ys ∧ y :: ys = xs := by
  simp only [readItems, Except.bind_eq_ok_iff, Except.pure_eq_ok_iff]

/-- Entries are read one after the other. -/
theorem readEntries_cons_eq_ok_iff {key : Key} {node : Node} {entries : List (Key × Node)}
    {xs : List (String × α)} :
    readEntries read path ((key, node) :: entries) = .ok xs ↔
      ∃ y, read (.key key.name :: path) node = .ok y ∧
        ∃ ys, readEntries read path entries = .ok ys ∧ (key.name, y) :: ys = xs := by
  simp only [readEntries, Except.bind_eq_ok_iff, Except.pure_eq_ok_iff]

/-- A list is read from a whole array. -/
theorem readList_array_eq_ok_iff {start : Nat} {items : List Node} {ending : Ending}
    {xs : List α} :
    readList read path (.array start items ending) = .ok xs ↔
      ending.IsWhole ∧ readItems read path 0 items = .ok xs := by
  simp only [readList, Except.bind_eq_ok_iff (x := readItems read path 0 items),
    Except.bind_unit_eq_ok_iff, Ending.check_eq_ok_iff, Except.pure_eq_ok_iff]
  constructor
  · rintro ⟨_, hxs, hending, rfl⟩
    exact ⟨hending, hxs⟩
  · rintro ⟨hending, hxs⟩
    exact ⟨xs, hxs, hending, rfl⟩

/-- A table is read from a whole object; a repeated key keeps its first place
and its last value. -/
theorem readTable_object_eq_ok_iff {start : Nat} {entries : List (Key × Node)} {ending : Ending}
    {table : List (String × α)} :
    readTable read path (.object start entries ending) = .ok table ↔
      ending.IsWhole ∧
        ∃ xs, readEntries read path entries = .ok xs ∧ table = Json.putEntries [] xs := by
  simp only [readTable, Except.bind_eq_ok_iff (x := readEntries read path entries),
    Except.bind_unit_eq_ok_iff, Ending.check_eq_ok_iff, Except.pure_eq_ok_iff]
  constructor
  · rintro ⟨xs, hxs, hending, rfl⟩
    exact ⟨hending, xs, hxs, rfl⟩
  · rintro ⟨hending, xs, hxs, rfl⟩
    exact ⟨xs, hxs, hending, rfl⟩

end

/-! ## words -/

/-- A word is read if it is one of the words. -/
theorem readWordIn_eq_ok_iff {α : Type} {words : List (String × α)} {path : Path} {name : String}
    {offset : Nat} {x : α} :
    readWordIn words path name offset = .ok x ↔ Json.entry? words name = some x := by
  rw [readWordIn]
  split <;> simp_all

theorem readNull_eq_ok_iff {path : Path} {node : Node} :
    readNull path node = .ok () ↔ ∃ start stop, node = .scalar .null start stop := by
  constructor
  · intro h
    unfold readNull at h
    split at h
    · exact ⟨_, _, rfl⟩
    · contradiction
  · rintro ⟨start, stop, rfl⟩
    rfl

/-- Nothing may come after the only entry of a word. -/
theorem checkWordEnd_eq_ok_iff {path : Path} {more : List (Key × Node)} {ending : Ending} :
    checkWordEnd path more ending = .ok () ↔ more = [] ∧ ending.IsWhole := by
  unfold checkWordEnd
  split <;> simp [Ending.IsWhole]

section

variable {α : Type} {words : List (String × α)} {path : Path} {start : Nat}
  {entries : List (Key × Node)} {ending : Ending} {x : α}

/-- A word as an object in a value: one entry that holds null. -/
theorem readChoice_value_eq_ok_iff :
    readChoice words .value path (.object start entries ending) = .ok x ↔
      ∃ key node, entries = [(key, node)] ∧ Json.entry? words key.name = some x ∧
        ∃ start stop, node = .scalar .null start stop := by
  match entries with
  | [] => simp [readChoice]
  | (key, node) :: other :: more => simp [readChoice]
  | [(key, node)] =>
    simp only [readChoice, Except.bind_eq_ok_iff, readWordIn_eq_ok_iff]
    constructor
    · rintro ⟨y, hword, _, hnull, h⟩
      cases h
      exact ⟨key, node, rfl, hword, readNull_eq_ok_iff.mp hnull⟩
    · rintro ⟨_, _, ⟨⟩, hword, hnull⟩
      exact ⟨x, hword, (), readNull_eq_ok_iff.mpr hnull, rfl⟩

/-- A word as an object in a text, which also has to be whole. -/
theorem readChoice_text_eq_ok_iff :
    readChoice words .text path (.object start entries ending) = .ok x ↔
      ending.IsWhole ∧ ∃ key node, entries = [(key, node)] ∧
        Json.entry? words key.name = some x ∧ ∃ start stop, node = .scalar .null start stop := by
  cases entries with
  | nil => cases ending <;> simp [readChoice, Except.bind_eq_ok_iff]
  | cons entry more =>
    obtain ⟨key, node⟩ := entry
    simp only [readChoice, Except.bind_eq_ok_iff, readWordIn_eq_ok_iff]
    constructor
    · rintro ⟨y, hword, _, hnull, _, hend, h⟩
      cases h
      obtain ⟨rfl, hending⟩ := checkWordEnd_eq_ok_iff.mp hend
      exact ⟨hending, key, node, rfl, hword, readNull_eq_ok_iff.mp hnull⟩
    · rintro ⟨hending, _, _, ⟨⟩, hword, hnull⟩
      exact ⟨x, hword, (), readNull_eq_ok_iff.mpr hnull, (),
        checkWordEnd_eq_ok_iff.mpr ⟨rfl, hending⟩, rfl⟩

end

/-! ## records -/

namespace RecordFormat

variable {α : Type} {format : RecordFormat α} {source : Source} {path : Path}

section

variable {seen : List String} {record x : α} {ending : Ending}

/-- The field under a name has that name. -/
theorem name_of_field?_eq_some {name : String} {field : FieldFormat α}
    (h : format.field? name = some field) : field.name = name := by
  simpa using List.find?_some h

/-- A key is taken if it names a field and was not seen. -/
theorem fieldFor_eq_ok_iff {key : Key} {field : FieldFormat α} :
    format.fieldFor path seen key = .ok field ↔
      format.field? key.name = some field ∧ key.name ∉ seen := by
  rw [fieldFor]
  split
  · next h => simp [h]
  · next found h =>
      by_cases hseen : key.name ∈ seen <;> simp [h, hseen]

/-- A record is read entry by entry: each key names a field that was not seen. -/
theorem readFields_cons_eq_ok_iff {key : Key} {node : Node} {entries : List (Key × Node)}
    {out : List String × α} :
    format.readFields path seen record ((key, node) :: entries) = .ok out ↔
      ∃ field, format.field? key.name = some field ∧ key.name ∉ seen ∧
        ∃ next, field.read (.key key.name :: path) node record = .ok next ∧
          format.readFields path (key.name :: seen) next entries = .ok out := by
  simp only [readFields, Except.bind_eq_ok_iff, fieldFor_eq_ok_iff, and_assoc]

/-- No key is read twice. -/
theorem nodup_of_readFields {entries : List (Key × Node)} {out : List String × α}
    (h : format.readFields path seen record entries = .ok out) :
    (entries.map (·.1.name)).Nodup ∧ ∀ name ∈ entries.map (·.1.name), name ∉ seen := by
  induction entries generalizing seen record with
  | nil => exact ⟨List.nodup_nil, fun _ h => absurd h List.not_mem_nil⟩
  | cons entry entries ih =>
      obtain ⟨_, _, hnew, _, _, h⟩ := readFields_cons_eq_ok_iff.mp h
      obtain ⟨hnodup, hseen⟩ := ih h
      refine ⟨List.nodup_cons.mpr ⟨fun hmem => ?_, hnodup⟩, List.forall_mem_cons.mpr ⟨hnew, ?_⟩⟩
      · exact hseen _ hmem List.mem_cons_self
      · exact fun name hmem hold => hseen name hmem (List.mem_cons_of_mem _ hold)

/-- At the end of a record, all required fields have been seen. -/
theorem checkFields_eq_ok_iff :
    format.checkFields path seen ending = .ok () ↔
      ending.IsWhole ∧ ∀ field ∈ format.fields, field.isRequired = true → field.name ∈ seen := by
  have hfind : (format.fields.find? fun field => field.isRequired && !seen.contains field.name) =
      none ↔ ∀ field ∈ format.fields, field.isRequired = true → field.name ∈ seen := by
    simp [List.find?_eq_none]
  rw [← hfind]
  cases ending with
  | keyOnly key e =>
      -- whether the key is known or not, no value follows it
      simp [checkFields, Except.bind_eq_ok_iff, Ending.check, Ending.IsWhole]
  | _ =>
      simp only [checkFields, Except.bind_eq_ok_iff, Ending.check, Ending.IsWhole]
      cases format.fields.find? fun field => field.isRequired && !seen.contains field.name <;>
        simp [Except.pure_eq_ok_iff]

/-- **Records as objects**: fields in any order, none of them twice, and all
that are required. -/
theorem read_object_eq_ok_iff {start : Nat} {entries : List (Key × Node)} :
    format.read source path (.object start entries ending) = .ok x ↔
      ending.IsWhole ∧ ∃ seen, format.readFields path [] format.blank entries = .ok (seen, x) ∧
        ∀ field ∈ format.fields, field.isRequired = true → field.name ∈ seen := by
  have hread : format.read source path (.object start entries ending) = .ok x ↔
      ∃ seen, format.readFields path [] format.blank entries = .ok (seen, x) ∧
        format.checkFields path seen ending = .ok () := by
    rw [read.eq_def]
    cases ending with
    | tooDeep e => simp [Except.bind_eq_ok_iff, checkFields_eq_ok_iff, Ending.IsWhole]
    | _ =>
      simp only [Except.bind_eq_ok_iff, Except.pure_eq_ok_iff]
      constructor
      · rintro ⟨⟨seen, y⟩, hfields, ⟨⟩, hcheck, rfl⟩
        exact ⟨seen, hfields, hcheck⟩
      · rintro ⟨seen, hfields, hcheck⟩
        exact ⟨(seen, x), hfields, (), hcheck, rfl⟩
  simp only [hread, checkFields_eq_ok_iff]
  constructor
  · rintro ⟨seen, hseen, hending, hall⟩
    exact ⟨hending, seen, hseen, hall⟩
  · rintro ⟨hending, seen, hseen, hall⟩
    exact ⟨seen, hseen, hending, hall⟩

/-- In a text no item may follow the last field, and the array is whole. -/
theorem checkEnd_text_eq_ok_iff {length : Nat} {items : List Node} :
    checkEnd .text path length items ending = .ok () ↔ items = [] ∧ ending.IsWhole := by
  cases items with
  | cons item items => simp [checkEnd]
  | nil =>
      cases ending with
      | broken e unread =>
        simp only [checkEnd, Ending.IsWhole]
        split <;> simp
      | _ => simp [checkEnd, Ending.check, Ending.IsWhole]

/-- In a value no item may follow the last field. -/
theorem checkEnd_value_eq_ok_iff {length : Nat} {items : List Node} :
    checkEnd .value path length items ending = .ok () ↔ items = [] := by
  cases items <;> simp [checkEnd]

end

section

variable {items rest : List Node} {ending : Ending} {position : Nat} {field : FieldFormat α}
  {fields : List (FieldFormat α)} {record x : α}

theorem readElements_text_nil_eq_ok_iff :
    format.readElements .text path items ending position [] rest record = .ok x ↔
      rest = [] ∧ ending.IsWhole ∧ record = x := by
  simp only [readElements, Except.bind_unit_eq_ok_iff, checkEnd_text_eq_ok_iff,
    Except.pure_eq_ok_iff, and_assoc]

theorem readElements_value_nil_eq_ok_iff :
    format.readElements .value path items ending position [] rest record = .ok x ↔
      rest = [] ∧ record = x := by
  simp only [readElements, Except.bind_unit_eq_ok_iff, checkEnd_value_eq_ok_iff,
    Except.pure_eq_ok_iff]

/-- Where the items end early, the other fields must not be required. -/
theorem readElements_cons_nil_eq_ok_iff :
    format.readElements source path items ending position (field :: fields) [] record = .ok x ↔
      ending.IsWhole ∧ (∀ field' ∈ field :: fields, field'.isRequired = false) ∧ record = x := by
  rw [readElements.eq_def]
  simp only [Except.bind_unit_eq_ok_iff, Ending.check_eq_ok_iff]
  have hnone : (field :: fields).findIdx? (·.isRequired) = none ↔
      ∀ field' ∈ field :: fields, field'.isRequired = false := List.findIdx?_eq_none_iff
  rw [← hnone]
  cases (field :: fields).findIdx? (·.isRequired) <;> simp [Except.pure_eq_ok_iff]

/-- **Records as arrays**: the fields in their order, one item for each. -/
theorem readElements_cons_cons_eq_ok_iff {item : Node} :
    format.readElements source path items ending position (field :: fields) (item :: rest) record =
        .ok x ↔
      ∃ next, field.read (.index position :: path) item record = .ok next ∧
        format.readElements source path items ending (position + 1) fields rest next = .ok x := by
  rw [readElements, Except.bind_eq_ok_iff]

/-- The whole list of items matters for errors only. -/
theorem readElements_value_iff_of_items (items items' : List Node) :
    format.readElements .value path items ending position fields rest record = .ok x ↔
      format.readElements .value path items' ending position fields rest record = .ok x := by
  induction fields generalizing position rest record with
  | nil => rw [readElements_value_nil_eq_ok_iff, readElements_value_nil_eq_ok_iff]
  | cons field fields ih =>
      cases rest with
      | nil => rw [readElements_cons_nil_eq_ok_iff, readElements_cons_nil_eq_ok_iff]
      | cons item rest => simp only [readElements_cons_cons_eq_ok_iff, ih]

end

end RecordFormat

end Exemplar
