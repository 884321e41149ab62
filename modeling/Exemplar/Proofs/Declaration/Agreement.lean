import Exemplar.Proofs.Declaration.Format

/-!
# Exemplar.Proofs.Declaration.Agreement

Two ways to read from a tree: by a reader of its own, or by a reader that gets
the tree of its value.  In a value a repeated key has only its last entry, which
hides the others, so the two ways agree where nothing that is looked at is
hidden: the first succeeds exactly when the second does and nothing is hidden,
with the same result.

* `Agrees` — two readers agree on the trees that hide nothing;
* `agrees_readText`, `agrees_readOptional`, `agrees_readList`,
  `agrees_readTable`, `agrees_readChoice` — the readers of parts;
* `agrees_read` — readers of records, if those of their fields agree.
-/

namespace Exemplar

/-- What the first reader reads from a tree that hides nothing, the second one
reads from the tree of its value, and the first one reads nothing else. -/
def Agrees {α : Type} (direct indirect : NodeReader α) (HidesNothing : Node → Prop) : Prop :=
  ∀ (path path' : Path) (node : Node) (x : α), direct path node = .ok x ↔
    HidesNothing node ∧ ∃ value, node.Means value ∧ indirect path' (Node.ofJson value) = .ok x

/-! ## scalars -/

section

variable {α : Type}

/-- A reader of scalars that looks at nothing but the scalar. -/
theorem agrees_of_scalar {read : NodeReader α}
    (hscalar : ∀ {path node x}, read path node = .ok x →
      ∃ scalar start stop, node = .scalar scalar start stop ∧
        ∀ path start stop, read path (.scalar scalar start stop) = .ok x) :
    Agrees read read fun _ => True := by
  intro path path' node x
  constructor
  · intro h
    obtain ⟨scalar, start, stop, rfl, hread⟩ := hscalar h
    have htree : Node.ofJson scalar.toJson = .scalar scalar 0 0 :=
      Node.ofJson_eq_scalar_iff.mpr ⟨rfl, rfl, rfl⟩
    exact ⟨trivial, scalar.toJson, fun _ => rfl, htree ▸ hread path' 0 0⟩
  · rintro ⟨-, value, hmeans, h⟩
    obtain ⟨scalar, start, stop, htree, hread⟩ := hscalar h
    obtain ⟨rfl, -, -⟩ := Node.ofJson_eq_scalar_iff.mp htree
    obtain ⟨start, stop, rfl⟩ := Node.means_scalar_iff.mp hmeans
    exact hread path start stop

/-- A string is read from the text and from its value alike. -/
theorem agrees_readText : Agrees readText readText fun _ => True :=
  agrees_of_scalar fun h => by
    obtain ⟨start, stop, rfl⟩ := readText_eq_ok_iff.mp h
    exact ⟨_, start, stop, rfl, fun _ _ _ => rfl⟩

theorem agrees_readBool : Agrees readBool readBool fun _ => True :=
  agrees_of_scalar fun h => by
    obtain ⟨start, stop, rfl⟩ := readBool_eq_ok_iff.mp h
    exact ⟨_, start, stop, rfl, fun _ _ _ => rfl⟩

/-! ## any values -/

/-- So is any value that may be absent. -/
theorem agrees_readOptional : Agrees readOptional readOptional fun _ => True := by
  intro path path' node x
  simp only [readOptional_eq_ok_iff, true_and]
  constructor
  · rintro ⟨value, hmeans, hx⟩
    exact ⟨value, hmeans, value, Node.ofJson_means (Node.distinctKeys_of_means hmeans), hx⟩
  · rintro ⟨value, hmeans, other, hother, hx⟩
    have hagain := Node.ofJson_means (Node.distinctKeys_of_means hmeans)
    exact ⟨value, hmeans, hagain.unique hother ▸ hx⟩

end

/-! ## lists -/

/-- No item of a list hides anything. -/
def Node.ItemsHideNothing (HidesNothing : Node → Prop) : Node → Prop
  | .array _ items _ => ∀ item ∈ items, HidesNothing item
  | _ => True

@[simp]
theorem Node.itemsHideNothing_true (node : Node) : node.ItemsHideNothing fun _ => True := by
  cases node <;> simp [ItemsHideNothing]

section

variable {α : Type} {direct indirect : NodeReader α} {HidesNothing : Node → Prop}

/-- Items are read alike if each of them is. -/
theorem readItems_eq_ok_iff_of_agrees (h : Agrees direct indirect HidesNothing) (path path' : Path)
    (position position' : Nat) (items : List Node) (xs : List α) :
    readItems direct path position items = .ok xs ↔
      (∀ item ∈ items, HidesNothing item) ∧ ∃ values, List.Forall₂ Node.Means items values ∧
        readItems indirect path' position' (Node.ofItems values) = .ok xs := by
  induction items generalizing position position' xs with
  | nil => simp [Node.ofItems, readItems]
  | cons item items ih =>
      simp only [readItems_cons_eq_ok_iff, List.forall_mem_cons, List.forall₂_cons_left_iff]
      constructor
      · rintro ⟨y, hy, ys, hys, rfl⟩
        obtain ⟨hitem, value, hmeans, hvalue⟩ := (h _ (.index position' :: path') _ _).mp hy
        obtain ⟨hitems, values, hall, hvalues⟩ := (ih _ (position' + 1) _).mp hys
        exact ⟨⟨hitem, hitems⟩, value :: values, ⟨value, values, hmeans, hall, rfl⟩,
          readItems_cons_eq_ok_iff.mpr ⟨y, hvalue, ys, hvalues, rfl⟩⟩
      · rintro ⟨⟨hitem, hitems⟩, _, ⟨value, values, hmeans, hall, rfl⟩, hread⟩
        obtain ⟨y, hvalue, ys, hvalues, rfl⟩ := readItems_cons_eq_ok_iff.mp hread
        exact ⟨y, (h _ _ _ _).mpr ⟨hitem, value, hmeans, hvalue⟩, ys,
          (ih _ _ _).mpr ⟨hitems, values, hall, hvalues⟩, rfl⟩

/-- **Lists** are read alike, if their items are. -/
theorem agrees_readList (h : Agrees direct indirect HidesNothing) :
    Agrees (readList direct) (readList indirect) (Node.ItemsHideNothing HidesNothing) := by
  intro path path' node xs
  cases node with
  | array start items ending =>
      simp only [readList_array_eq_ok_iff, readItems_eq_ok_iff_of_agrees h path path' 0 0,
        Node.array_means_iff, Node.ItemsHideNothing]
      constructor
      · rintro ⟨hending, hitems, values, hall, hread⟩
        exact ⟨hitems, .array values, ⟨hending, values, hall, rfl⟩,
          readList_array_eq_ok_iff.mpr ⟨trivial, hread⟩⟩
      · rintro ⟨hitems, _, ⟨hending, values, hall, rfl⟩, hread⟩
        exact ⟨hending, hitems, values, hall, (readList_array_eq_ok_iff.mp hread).2⟩
  | scalar scalar start stop =>
      simp only [Node.scalar_means_iff, exists_eq_left]
      cases scalar <;> simp [readList, Scalar.toJson, Node.ofJson]
  | object start entries ending => simp [readList, Node.object_means_iff, Node.ofJson]
  | unread error rest => simp [readList, Node.not_unread_means]

end

/-! ## tables -/

/-- The value is a string. -/
def Json.IsText (value : Json) : Prop := ∃ text, value = .string text

/-- The tree is a string. -/
def Node.IsText (node : Node) : Prop := ∃ text, node.Means (.string text)

/-- In a table, only strings are hidden. -/
def Node.HidesOnlyText : Node → Prop
  | .object _ entries _ =>
    entries.Pairwise fun entry later => entry.1.name = later.1.name → entry.2.IsText
  | _ => True

/-- The entries of a table of strings. -/
def Json.ofTexts (texts : List (String × String)) : List (String × Json) :=
  texts.map fun entry => (entry.1, .string entry.2)

/-- Putting strings into a table is putting their values. -/
theorem Json.putEntries_ofTexts (texts : List (String × String)) :
    putEntries [] (ofTexts texts) = ofTexts (putEntries [] texts) :=
  putEntries_map Json.string [] texts

theorem Json.ofTexts_inj {texts others : List (String × String)}
    (h : ofTexts texts = ofTexts others) : texts = others := by
  refine List.map_injective_iff.mpr ?_ h
  rintro ⟨key, text⟩ ⟨key', text'⟩ heq
  simpa using heq

/-- A table whose values are all strings is a table of strings. -/
theorem Json.exists_eq_ofTexts {entries : List (String × Json)}
    (h : ∀ entry ∈ entries, entry.2.IsText) : ∃ texts, entries = ofTexts texts := by
  induction entries with
  | nil => exact ⟨[], rfl⟩
  | cons entry entries ih =>
      obtain ⟨⟨text, htext⟩, hentries⟩ := List.forall_mem_cons.mp h
      obtain ⟨texts, rfl⟩ := ih hentries
      exact ⟨(entry.1, text) :: texts, congrArg (· :: ofTexts texts) (Prod.ext rfl htext)⟩

/-- A table of strings is read from entries that mean its strings. -/
theorem readEntries_readText_eq_ok_iff {path : Path} {entries : List (Key × Node)}
    {texts : List (String × String)} :
    readEntries readText path entries = .ok texts ↔
      List.Forall₂ Node.EntryMeans entries (Json.ofTexts texts) := by
  induction entries generalizing texts with
  | nil => cases texts <;> simp [readEntries, Json.ofTexts]
  | cons entry entries ih =>
      rw [readEntries_cons_eq_ok_iff]
      constructor
      · rintro ⟨text, htext, texts, htexts, rfl⟩
        exact .cons ⟨rfl, readText_eq_ok_iff_means.mp htext⟩ (ih.mp htexts)
      · intro h
        cases texts with
        | nil => contradiction
        | cons first texts =>
            obtain ⟨⟨hname, hmeans⟩, hrest⟩ := List.forall₂_cons.mp h
            exact ⟨first.2, readText_eq_ok_iff_means.mpr hmeans, texts, ih.mpr hrest,
              by rw [hname]⟩

/-- A string in a value is read from no other values. -/
theorem ofEntries_means_ofTexts_iff {entries : List (String × Json)}
    {texts : List (String × String)} :
    List.Forall₂ Node.EntryMeans (Node.ofEntries entries) (Json.ofTexts texts) ↔
      entries = Json.ofTexts texts := by
  constructor
  · intro h
    induction entries generalizing texts with
    | nil => cases texts <;> simp_all [Node.ofEntries, Json.ofTexts]
    | cons entry entries ih =>
        cases texts with
        | nil => contradiction
        | cons first texts =>
            obtain ⟨⟨hname, hmeans⟩, hrest⟩ := List.forall₂_cons.mp h
            obtain ⟨start, stop, htree⟩ :=
              (@Node.means_scalar_iff _ (.string first.2)).mp hmeans
            obtain ⟨hvalue, -⟩ := Node.ofJson_eq_scalar_iff.mp htree
            rw [ih hrest]
            exact congrArg (· :: _) (Prod.ext hname hvalue)
  · rintro rfl
    refine Node.ofEntries_means fun entry hentry => ?_
    obtain ⟨text, -, rfl⟩ := List.mem_map.mp hentry
    exact fun _ => rfl

/-- If a table hides only strings and keeps only strings, it has only strings. -/
theorem exists_eq_ofTexts_of_putEntries {entries : List (Key × Node)}
    {values : List (String × Json)} {texts : List (String × String)}
    (hall : List.Forall₂ Node.EntryMeans entries values)
    (hhidden : entries.Pairwise fun entry later =>
      entry.1.name = later.1.name → entry.2.IsText)
    (hkept : Json.putEntries [] values = Json.ofTexts texts) :
    ∃ all, values = Json.ofTexts all := by
  refine Json.exists_eq_ofTexts
    (@Json.forall_mem_of_putEntries _ [] _ _ (pairwise_of_forall₂ hall ?_ hhidden) ?_)
  · rintro entry later value value' ⟨hname, hmeans⟩ ⟨hname', -⟩ himp hkey
    obtain ⟨text, htext⟩ := himp (hname.trans (hkey.trans hname'.symm))
    exact ⟨text, hmeans.unique htext⟩
  · rw [hkept]
    intro entry hentry
    obtain ⟨text, -, rfl⟩ := List.mem_map.mp hentry
    exact ⟨text.2, rfl⟩

/-- **Tables of strings** are read alike: a repeated key keeps its last value
either way, but a hidden value has to be a string for the text to be read. -/
theorem agrees_readTable : Agrees (readTable readText) (readTable readText) Node.HidesOnlyText := by
  intro path path' node table
  cases node with
  | object start entries ending =>
      simp only [readTable_object_eq_ok_iff, readEntries_readText_eq_ok_iff,
        Node.object_means_iff, Node.HidesOnlyText]
      constructor
      · rintro ⟨hending, texts, hall, rfl⟩
        refine ⟨?_, _, ⟨hending, _, hall, rfl⟩, readTable_object_eq_ok_iff.mpr
          ⟨trivial, Json.putEntries [] texts, readEntries_readText_eq_ok_iff.mpr ?_, ?_⟩⟩
        · -- hidden or not, every entry is a string
          refine List.pairwise_of_forall_mem_list fun entry hentry _ _ _ => ?_
          obtain ⟨_, hmem, _, hmeans⟩ := exists_right_of_forall₂ hall hentry
          obtain ⟨text, -, rfl⟩ := List.mem_map.mp hmem
          exact ⟨text.2, hmeans⟩
        · exact ofEntries_means_ofTexts_iff.mpr (Json.putEntries_ofTexts texts)
        · exact (Json.putEntries_putEntries texts).symm
      · rintro ⟨hhidden, _, ⟨hending, values, hall, rfl⟩, hread⟩
        obtain ⟨-, texts, htexts, rfl⟩ := readTable_object_eq_ok_iff.mp hread
        have hleft : Json.putEntries [] values = Json.ofTexts texts :=
          ofEntries_means_ofTexts_iff.mp (readEntries_readText_eq_ok_iff.mp htexts)
        obtain ⟨all, rfl⟩ := exists_eq_ofTexts_of_putEntries hall hhidden hleft
        rw [Json.putEntries_ofTexts] at hleft
        obtain rfl := Json.ofTexts_inj hleft
        exact ⟨hending, all, hall, Json.putEntries_putEntries all⟩
  | scalar scalar start stop =>
      simp only [Node.scalar_means_iff, exists_eq_left]
      cases scalar <;> simp [readTable, Scalar.toJson, Node.ofJson]
  | array start items ending => simp [readTable, Node.array_means_iff, Node.ofJson]
  | unread error rest => simp [readTable, Node.not_unread_means]

/-! ## words -/

/-- In a word that stands as an object, no key is repeated. -/
def Node.RepeatsNoKey : Node → Prop
  | .object _ entries _ => (entries.map (·.1.name)).Nodup
  | _ => True

/-- **Words** are read alike, whether as a string or as an object. -/
theorem agrees_readChoice {α : Type} (words : List (String × α)) :
    Agrees (readChoice words .text) (readChoice words .value) Node.RepeatsNoKey := by
  intro path path' node x
  cases node with
  | object start entries ending =>
      simp only [readChoice_text_eq_ok_iff, Node.object_means_iff, Node.RepeatsNoKey]
      constructor
      · rintro ⟨hending, key, _, rfl, hword, _, _, rfl⟩
        refine ⟨List.pairwise_singleton _ _, .object [(key.name, .null)],
          ⟨hending, [(key.name, .null)], .cons ⟨rfl, fun _ => rfl⟩ .nil, rfl⟩, ?_⟩
        exact readChoice_value_eq_ok_iff.mpr ⟨_, _, rfl, hword, 0, 0, rfl⟩
      · rintro ⟨hnodup, _, ⟨hending, values, hall, rfl⟩, hread⟩
        rw [← Node.keys_of_entryMeans hall] at hnodup
        rw [Json.putEntries_of_nodup hnodup] at hread
        obtain ⟨_, _, htree, hword, hnull⟩ := readChoice_value_eq_ok_iff.mp hread
        match values with
        | [] => contradiction
        | _ :: _ :: _ => contradiction
        | [(name, value)] =>
          simp only [Node.ofEntries, List.cons.injEq, Prod.mk.injEq, and_true] at htree
          obtain ⟨rfl, rfl⟩ := htree
          obtain ⟨⟨key, node⟩, rest, ⟨rfl, hmeans⟩, hrest, rfl⟩ :=
            List.forall₂_cons_right_iff.mp hall
          obtain rfl := List.forall₂_nil_right_iff.mp hrest
          obtain ⟨_, _, htree⟩ := hnull
          obtain ⟨rfl, -, -⟩ := Node.ofJson_eq_scalar_iff.mp htree
          exact ⟨hending, key, node, rfl, hword, Node.means_scalar_iff.mp hmeans⟩
  | scalar scalar start stop =>
      simp only [Node.scalar_means_iff, exists_eq_left, Node.RepeatsNoKey, true_and]
      cases scalar <;> simp [readChoice, Scalar.toJson, Node.ofJson, readWordIn_eq_ok_iff]
  | array start items ending => simp [readChoice, Node.array_means_iff, Node.ofJson]
  | unread error rest =>
      cases rest with
      | broken start isString e => cases isString <;> simp [readChoice, Node.not_unread_means]
      | _ => simp [readChoice, Node.not_unread_means]

/-! ## records -/

/-- No key of a record is repeated, and no field of it hides anything. -/
def Node.FieldsHideNothing (names : List String) (HidesNothing : String → Node → Prop) :
    Node → Prop
  | .object _ entries _ =>
    (entries.map (·.1.name)).Nodup ∧ ∀ entry ∈ entries, HidesNothing entry.1.name entry.2
  | .array _ items _ => ∀ part ∈ names.zip items, HidesNothing part.1 part.2
  | _ => True

/-- Two formats of one field, with readers that agree. -/
structure FieldFormat.AgreesWith {α : Type} (HidesNothing : String → Node → Prop)
    (direct indirect : FieldFormat α) : Prop where
  name : direct.name = indirect.name
  isRequired : direct.isRequired = indirect.isRequired
  read : ∀ record, Agrees (fun path node => direct.read path node record)
    (fun path node => indirect.read path node record) (HidesNothing direct.name)

/-- Two formats of one record, with fields that agree. -/
structure RecordFormat.AgreesWith {α : Type} (HidesNothing : String → Node → Prop)
    (direct indirect : RecordFormat α) : Prop where
  blank : direct.blank = indirect.blank
  fields : List.Forall₂ (FieldFormat.AgreesWith HidesNothing) direct.fields indirect.fields

namespace RecordFormat

variable {α : Type} {HidesNothing : String → Node → Prop} {direct indirect : RecordFormat α}

/-- Under one name both formats have a field, or neither has. -/
theorem find?_of_agreesWith {fields fields' : List (FieldFormat α)}
    (h : List.Forall₂ (FieldFormat.AgreesWith HidesNothing) fields fields') (name : String) :
    (fields.find? (·.name = name) = none ∧ fields'.find? (·.name = name) = none) ∨
      ∃ field field', fields.find? (·.name = name) = some field ∧
        fields'.find? (·.name = name) = some field' ∧ field.AgreesWith HidesNothing field' := by
  induction h with
  | nil => exact .inl ⟨rfl, rfl⟩
  | @cons field field' _ _ hfield _ ih =>
      rw [List.find?_cons, List.find?_cons, hfield.name]
      split
      · exact .inr ⟨field, field', rfl, rfl, hfield⟩
      · exact ih

/-- Reading an entry into a record, directly and through its value. -/
theorem AgreesWith.exists_field?_iff (h : direct.AgreesWith HidesNothing indirect)
    (path path' : Path) (name : String) (node : Node) (record next : α) :
    (∃ field, direct.field? name = some field ∧ field.read path node record = .ok next) ↔
      HidesNothing name node ∧ ∃ value, node.Means value ∧ ∃ field',
        indirect.field? name = some field' ∧
          field'.read path' (Node.ofJson value) record = .ok next := by
  obtain ⟨hnone, hnone'⟩ | ⟨field, field', hfield, hfield', hagrees⟩ :=
    find?_of_agreesWith h.fields name
  · simp [field?, hnone, hnone']
  · have hname : field.name = name := name_of_field?_eq_some hfield
    have hread := hagrees.read record path path' node next
    rw [hname] at hread
    simp only [field?, hfield, hfield', Option.some.injEq, exists_eq_left', hread]

/-- The fields are read alike, after the same fields. -/
theorem AgreesWith.readFields_eq_ok_iff (h : direct.AgreesWith HidesNothing indirect)
    (path path' : Path) (seen : List String) (record : α) (entries : List (Key × Node))
    (out : List String × α) :
    direct.readFields path seen record entries = .ok out ↔
      (∀ entry ∈ entries, HidesNothing entry.1.name entry.2) ∧
        ∃ values, List.Forall₂ Node.EntryMeans entries values ∧
          indirect.readFields path' seen record (Node.ofEntries values) = .ok out := by
  induction entries generalizing seen record with
  | nil => simp [Node.ofEntries, readFields]
  | cons entry entries ih =>
      obtain ⟨key, node⟩ := entry
      have hentry := h.exists_field?_iff (.key key.name :: path) (.key key.name :: path') key.name
        node record
      simp only [readFields_cons_eq_ok_iff, List.forall_mem_cons, List.forall₂_cons_left_iff]
      constructor
      · rintro ⟨field, hfield, hnew, next, hnext, hrest⟩
        obtain ⟨hkey, value, hmeans, field', hfield', hvalue⟩ :=
          (hentry next).mp ⟨field, hfield, hnext⟩
        obtain ⟨hentries, values, hall, hvalues⟩ := (ih _ _).mp hrest
        exact ⟨⟨hkey, hentries⟩, (key.name, value) :: values,
          ⟨(key.name, value), values, ⟨rfl, hmeans⟩, hall, rfl⟩,
          readFields_cons_eq_ok_iff.mpr ⟨field', hfield', hnew, next, hvalue, hvalues⟩⟩
      · rintro ⟨⟨hkey, hentries⟩, _, ⟨⟨_, value⟩, values, ⟨⟨⟩, hmeans⟩, hall, rfl⟩, hread⟩
        obtain ⟨field', hfield', hnew, next, hvalue, hvalues⟩ :=
          readFields_cons_eq_ok_iff.mp hread
        obtain ⟨field, hfield, hnext⟩ :=
          (hentry next).mpr ⟨hkey, value, hmeans, field', hfield', hvalue⟩
        exact ⟨field, hfield, hnew, next, hnext, (ih _ _).mpr ⟨hentries, values, hall, hvalues⟩⟩

/-- Both formats require the same fields. -/
theorem required_iff_of_agreesWith {fields fields' : List (FieldFormat α)}
    (h : List.Forall₂ (FieldFormat.AgreesWith HidesNothing) fields fields') (P : String → Prop) :
    (∀ field ∈ fields, field.isRequired = true → P field.name) ↔
      ∀ field ∈ fields', field.isRequired = true → P field.name := by
  induction h with
  | nil => simp
  | cons hfield _ ih => rw [List.forall_mem_cons, List.forall_mem_cons, hfield.name,
      hfield.isRequired, ih]

/-- Fields that stand in an array, read directly and through its value. -/
theorem readElements_eq_ok_iff_of_agreesWith (direct indirect : RecordFormat α)
    {fields fields' : List (FieldFormat α)}
    (h : List.Forall₂ (FieldFormat.AgreesWith HidesNothing) fields fields') (path path' : Path)
    (items items' : List Node) (ending : Ending) (position position' : Nat) (rest : List Node)
    (record x : α) :
    direct.readElements .text path items ending position fields rest record = .ok x ↔
      (∀ part ∈ (fields.map (·.name)).zip rest, HidesNothing part.1 part.2) ∧ ending.IsWhole ∧
        ∃ values, List.Forall₂ Node.Means rest values ∧
          indirect.readElements .value path' items' (.closed 0) position' fields'
            (Node.ofItems values) record = .ok x := by
  induction h generalizing position position' rest record with
  | nil =>
      simp only [readElements_text_nil_eq_ok_iff, readElements_value_nil_eq_ok_iff]
      constructor
      · rintro ⟨rfl, hending, rfl⟩
        exact ⟨by simp, hending, [], .nil, rfl, rfl⟩
      · rintro ⟨-, hending, values, hall, hvalues, rfl⟩
        cases hall with
        | nil => exact ⟨rfl, hending, rfl⟩
        | cons => contradiction
  | @cons field field' fields fields' hfield hfields ih =>
      cases rest with
      | nil =>
          have hrequired := required_iff_of_agreesWith (.cons hfield hfields) fun _ => False
          simp only [imp_false, Bool.not_eq_true] at hrequired
          simp only [readElements_cons_nil_eq_ok_iff, List.forall₂_nil_left_iff, exists_eq_left,
            Node.ofItems, hrequired]
          simp [Ending.IsWhole]
      | cons item rest =>
          simp only [readElements_cons_cons_eq_ok_iff, List.map_cons, List.zip_cons_cons,
            List.forall_mem_cons, List.forall₂_cons_left_iff]
          constructor
          · rintro ⟨next, hnext, hrest⟩
            obtain ⟨hitem, value, hmeans, hvalue⟩ :=
              (hfield.read record _ (.index position' :: path') _ _).mp hnext
            obtain ⟨hfits, hending, values, hall, hvalues⟩ := (ih _ (position' + 1) _ _).mp hrest
            exact ⟨⟨hitem, hfits⟩, hending, value :: values, ⟨value, values, hmeans, hall, rfl⟩,
              readElements_cons_cons_eq_ok_iff.mpr ⟨next, hvalue, hvalues⟩⟩
          · rintro ⟨⟨hitem, hfits⟩, hending, _, ⟨value, values, hmeans, hall, rfl⟩, hread⟩
            obtain ⟨next, hvalue, hvalues⟩ := readElements_cons_cons_eq_ok_iff.mp hread
            exact ⟨next, (hfield.read record _ _ _ _).mpr ⟨hitem, value, hmeans, hvalue⟩,
              (ih _ _ _ _).mpr ⟨hfits, hending, values, hall, hvalues⟩⟩

/-- **Records**: if the readers of the fields agree, the readers of the record do. -/
theorem AgreesWith.agrees_read (h : direct.AgreesWith HidesNothing indirect) :
    Agrees (direct.read .text) (indirect.read .value)
      (Node.FieldsHideNothing (direct.fields.map (·.name)) HidesNothing) := by
  intro path path' node x
  cases node with
  | object start entries ending =>
      have hrequired := fun seen : List String =>
        required_iff_of_agreesWith h.fields fun name => name ∈ seen
      simp only [read_object_eq_ok_iff, Node.object_means_iff, Node.FieldsHideNothing]
      constructor
      · rintro ⟨hending, seen, hread, hseen⟩
        have hnodup := (nodup_of_readFields hread).1
        obtain ⟨hentries, values, hall, hvalues⟩ :=
          (h.readFields_eq_ok_iff path path' _ _ _ _).mp hread
        rw [h.blank] at hvalues
        refine ⟨⟨hnodup, hentries⟩, _, ⟨hending, values, hall, rfl⟩, ?_⟩
        rw [← Node.keys_of_entryMeans hall] at hnodup
        rw [Json.putEntries_of_nodup hnodup]
        exact read_object_eq_ok_iff.mpr ⟨trivial, seen, hvalues, (hrequired seen).mp hseen⟩
      · rintro ⟨⟨hnodup, hentries⟩, _, ⟨hending, values, hall, rfl⟩, hread⟩
        rw [← Node.keys_of_entryMeans hall] at hnodup
        rw [Json.putEntries_of_nodup hnodup] at hread
        obtain ⟨-, seen, hvalues, hseen⟩ := read_object_eq_ok_iff.mp hread
        rw [← h.blank] at hvalues
        exact ⟨hending, seen,
          (h.readFields_eq_ok_iff path path' _ _ _ _).mpr ⟨hentries, values, hall, hvalues⟩,
          (hrequired seen).mpr hseen⟩
  | array start items ending =>
      have hread := readElements_eq_ok_iff_of_agreesWith direct indirect h.fields path path' items
        [] ending 0 0 items indirect.blank x
      simp only [Node.array_means_iff, Node.FieldsHideNothing, read, h.blank, hread]
      constructor
      · rintro ⟨hitems, hending, values, hall, hvalues⟩
        exact ⟨hitems, .array values, ⟨hending, values, hall, rfl⟩,
          (readElements_value_iff_of_items _ _).mp hvalues⟩
      · rintro ⟨hitems, _, ⟨hending, values, hall, rfl⟩, hvalues⟩
        exact ⟨hitems, hending, values, hall, (readElements_value_iff_of_items _ _).mp hvalues⟩
  | scalar scalar start stop =>
      simp only [Node.scalar_means_iff, exists_eq_left]
      cases scalar <;> simp [read, Scalar.toJson, Node.ofJson]
  | unread error rest => simp [read, Node.not_unread_means]

end RecordFormat

end Exemplar
