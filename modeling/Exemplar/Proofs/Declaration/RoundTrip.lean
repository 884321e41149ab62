import Exemplar.Proofs.Declaration.EmptyPointer
import Exemplar.Proofs.Declaration.Writing
import Exemplar.Proofs.Json.Printing
import Exemplar.Proofs.Json.Reading

/-!
# Exemplar.Proofs.Declaration.RoundTrip

Documents that are read, written and read again.  A document that has been read
is settled: no table of attributes repeats a key, and no initializer is null or
repeats a key in one of its objects.  Settled documents are read again from their
values, and from the compact texts of these if the reader has room for the
brackets and the doubles are read back.

* `Document.IsSettled` — what reading makes of documents;
* `isSettled_of_ofJson` — documents that are read are settled;
* `ofJson_toJson` — settled documents are read again;
* `rereads` — reading after writing after reading.
-/

namespace Exemplar

/-! ## settled documents -/

/-- The attributes of the annotation have different names. -/
def Marker.IsSettled (marker : Marker) : Prop := (marker.attributes.map (·.1)).Nodup

/-- The initializer is no null and repeats no keys, and the annotations are settled. -/
structure FieldDecl.IsSettled (field : FieldDecl) : Prop where
  initializer : ∀ value ∈ field.initializer, value.nonNull? = some value ∧ value.DistinctKeys
  annotations : ∀ marker ∈ field.annotations, marker.IsSettled

/-- The fields of the class are settled. -/
def ClassDecl.IsSettled (decl : ClassDecl) : Prop := ∀ field ∈ decl.fields, field.IsSettled

/-- The classes of the document are settled. -/
def Document.IsSettled (document : Document) : Prop := ∀ decl ∈ document.classes, decl.IsSettled

/-! ## reading settles -/

section

variable {α β : Type} {read : NodeReader β} {path : Path} {node : Node}

/-- What holds of everything the reader gives holds of all items. -/
theorem forall_mem_of_readItems {P : β → Prop}
    (hread : ∀ {path node x}, read path node = .ok x → P x) {position : Nat} {items : List Node}
    {xs : List β} (h : readItems read path position items = .ok xs) : ∀ x ∈ xs, P x := by
  induction items generalizing xs position with
  | nil =>
      cases h
      exact fun _ h => absurd h List.not_mem_nil
  | cons item items ih =>
      obtain ⟨y, hy, ys, hys, rfl⟩ := readItems_cons_eq_ok_iff.mp h
      exact List.forall_mem_cons.mpr ⟨hread hy, ih hys⟩

theorem forall_mem_of_readList {P : β → Prop}
    (hread : ∀ {path node x}, read path node = .ok x → P x) {xs : List β}
    (h : readList read path node = .ok xs) : ∀ x ∈ xs, P x := by
  cases node with
  | array start items ending =>
      exact forall_mem_of_readItems hread (readList_array_eq_ok_iff.mp h).2
  | _ => contradiction

/-- A table that is read has each key once. -/
theorem nodup_of_readTable {table : List (String × β)} (h : readTable read path node = .ok table) :
    (table.map (·.1)).Nodup := by
  cases node with
  | object start entries ending =>
      obtain ⟨-, xs, -, rfl⟩ := readTable_object_eq_ok_iff.mp h
      exact Json.nodup_putEntries xs
  | _ => contradiction

/-- A value that is read and not absent is not null, and repeats no keys. -/
theorem settled_of_readOptional {found : Option Json} (h : readOptional path node = .ok found) :
    ∀ value ∈ found, value.nonNull? = some value ∧ value.DistinctKeys := by
  obtain ⟨value, hmeans, rfl⟩ := readOptional_eq_ok_iff.mp h
  intro other hother
  cases value with
  | null => contradiction
  | _ =>
      cases hother
      exact ⟨rfl, Node.distinctKeys_of_means hmeans⟩

/-- A field that puts a value into its record keeps what the putting keeps. -/
theorem keeps_put {P : α → Prop} {put : α → β → α} {name : String} {isRequired : Bool}
    {write : α → Option Json}
    (h : ∀ {path node y before}, read path node = .ok y → P before → P (put before y)) :
    FieldFormat.Keeps
      ⟨name, isRequired, fun path node record => do return put record (← read path node), write⟩
      P := by
  intro path node before after hbefore hread
  obtain ⟨y, hy, hafter⟩ := Except.bind_eq_ok_iff.mp hread
  cases hafter
  exact h hy hbefore

end

section

variable {source : Source} {path : Path} {node : Node}

/-- Annotations that are read are settled. -/
theorem Marker.isSettled_of_read {marker : Marker}
    (h : Marker.format.read source path node = .ok marker) : marker.IsSettled := by
  have hblank : IsSettled ⟨"", []⟩ := List.nodup_nil
  refine RecordFormat.read_keeps (P := IsSettled) hblank ?_ h
  refine List.forall_mem_cons.mpr ⟨keeps_put fun _ h => h, ?_⟩
  exact List.forall_mem_singleton.mpr (keeps_put fun h _ => nodup_of_readTable h)

/-- Field declarations that are read are settled. -/
theorem FieldDecl.isSettled_of_read {field : FieldDecl}
    (h : (FieldDecl.format source).read source path node = .ok field) : field.IsSettled := by
  have hblank : IsSettled ⟨"", "", false, none, []⟩ := ⟨by simp, by simp⟩
  refine RecordFormat.read_keeps (P := IsSettled) hblank ?_ h
  refine List.forall_mem_cons.mpr ⟨keeps_put fun _ h => ⟨h.initializer, h.annotations⟩, ?_⟩
  refine List.forall_mem_cons.mpr ⟨keeps_put fun _ h => ⟨h.initializer, h.annotations⟩, ?_⟩
  refine List.forall_mem_cons.mpr ⟨keeps_put fun _ h => ⟨h.initializer, h.annotations⟩, ?_⟩
  refine List.forall_mem_cons.mpr
    ⟨keeps_put fun hread h => ⟨settled_of_readOptional hread, h.annotations⟩, ?_⟩
  refine List.forall_mem_singleton.mpr (keeps_put fun hread h => ⟨h.initializer, ?_⟩)
  exact forall_mem_of_readList Marker.isSettled_of_read hread

/-- Class declarations that are read are settled. -/
theorem ClassDecl.isSettled_of_read {decl : ClassDecl}
    (h : (ClassDecl.format source).read source path node = .ok decl) : decl.IsSettled := by
  have hblank : IsSettled ⟨"", .ordinary, [], [], [], [], []⟩ := by simp [IsSettled]
  refine RecordFormat.read_keeps (P := IsSettled) hblank ?_ h
  refine List.forall_mem_cons.mpr ⟨keeps_put fun _ h => h, ?_⟩
  refine List.forall_mem_cons.mpr ⟨keeps_put fun _ h => h, ?_⟩
  refine List.forall_mem_cons.mpr ⟨keeps_put fun _ h => h, ?_⟩
  refine List.forall_mem_cons.mpr ⟨keeps_put fun _ h => h, ?_⟩
  refine List.forall_mem_cons.mpr ⟨keeps_put fun _ h => h, ?_⟩
  refine List.forall_mem_cons.mpr ⟨keeps_put fun _ h => h, ?_⟩
  refine List.forall_mem_singleton.mpr (keeps_put fun hread _ => ?_)
  exact forall_mem_of_readList FieldDecl.isSettled_of_read hread

/-- Documents that are read are settled. -/
theorem Document.isSettled_of_read {document : Document}
    (h : (Document.format source).read source path node = .ok document) : document.IsSettled := by
  have hblank : IsSettled ⟨[]⟩ := by simp [IsSettled]
  refine RecordFormat.read_keeps (P := IsSettled) hblank ?_ h
  refine List.forall_mem_singleton.mpr (keeps_put fun hread _ => ?_)
  exact forall_mem_of_readList ClassDecl.isSettled_of_read hread

end

/-! ## settled documents are read again -/

section

variable {α β : Type} {read : NodeReader β} {put : α → β → α} {name : String}
  {record before : α}

/-- A field that is always written. -/
theorem carries_put {isRequired : Bool} {write : α → Json} {y : β}
    (h : ∀ path, read path (Node.ofJson (write record)) = .ok y) :
    FieldFormat.Carries
      ⟨name, isRequired, fun path node record => do return put record (← read path node),
        fun record => some (write record)⟩
      record before (put before y) := by
  intro path
  show (do return put before (← read path (Node.ofJson (write record)))) = Except.ok _
  rw [h path]
  rfl

/-- A field that may be left out. -/
theorem carries_put_of_write {write : α → Option Json} {y : β}
    (hwritten : ∀ value ∈ write record, ∀ path, read path (Node.ofJson value) = .ok y)
    (hleft : write record = none → put before y = before) :
    FieldFormat.Carries
      ⟨name, false, fun path node record => do return put record (← read path node), write⟩
      record before (put before y) := by
  cases hwrite : write record with
  | none =>
      simp only [FieldFormat.Carries, hwrite]
      exact ⟨trivial, hleft hwrite⟩
  | some value =>
      simp only [FieldFormat.Carries, hwrite]
      intro path
      rw [hwritten value hwrite path]
      rfl

/-- A list that is written is read back, if each item is. -/
theorem readItems_ofItems {write : β → Json} {items : List β}
    (h : ∀ item ∈ items, ∀ path, read path (Node.ofJson (write item)) = .ok item) (path : Path)
    (position : Nat) :
    readItems read path position (Node.ofItems (items.map write)) = .ok items := by
  induction items generalizing position with
  | nil => rfl
  | cons item items ih =>
      obtain ⟨hitem, hitems⟩ := List.forall_mem_cons.mp h
      exact readItems_cons_eq_ok_iff.mpr ⟨item, hitem _, items, ih hitems _, rfl⟩

/-- A list that is left out when it is empty. -/
theorem carries_list {write : β → Json} {get : α → List β} {put : α → List β → α}
    (h : ∀ item ∈ get record, ∀ path, read path (Node.ofJson (write item)) = .ok item)
    (hempty : put before [] = before) :
    FieldFormat.Carries
      ⟨name, false, fun path node record => do return put record (← readList read path node),
        fun record => writeList write (get record)⟩
      record before (put before (get record)) := by
  refine carries_put_of_write ?_ ?_
  · intro value hvalue path
    unfold writeList at hvalue
    split at hvalue
    · contradiction
    · cases hvalue
      exact readList_array_eq_ok_iff.mpr ⟨trivial, readItems_ofItems h path 0⟩
  · intro hleft
    unfold writeList at hleft
    split at hleft
    · next hget => rw [List.isEmpty_iff.mp hget, hempty]
    · contradiction

end

section

variable {source : Source} {path : Path}

/-- A settled annotation is read back from what is written. -/
theorem Marker.read_write {marker : Marker} (h : marker.IsSettled) :
    Marker.format.read source path (Node.ofJson (Marker.format.write marker)) = .ok marker := by
  have hnames : ["name", "attributes"].Nodup := by decide
  refine RecordFormat.read_write hnames ?_
  refine .cons ⟨marker.name, []⟩ (carries_put fun _ => rfl) ?_
  refine .cons marker (carries_put_of_write ?_ ?_) (.nil marker)
  · intro value hvalue path
    dsimp only at hvalue
    split at hvalue
    · contradiction
    · cases hvalue
      refine readTable_object_eq_ok_iff.mpr ⟨trivial, marker.attributes, ?_,
        (Json.putEntries_of_nodup h).symm⟩
      exact readEntries_readText_eq_ok_iff.mpr (ofEntries_means_ofTexts_iff.mpr rfl)
  · intro hleft
    dsimp only at hleft
    split at hleft
    · next hempty => exact congrArg (Marker.mk marker.name) (List.isEmpty_iff.mp hempty)
    · contradiction

/-- A settled field declaration is read back. -/
theorem FieldDecl.read_write {field : FieldDecl} (h : field.IsSettled) :
    (FieldDecl.format source).read source path
      (Node.ofJson ((FieldDecl.format source).write field)) = .ok field := by
  have hnames : ["name", "type", "static", "initializer", "annotations"].Nodup := by decide
  have hannotations : ∀ marker ∈ field.annotations, ∀ path,
      Marker.format.read source path (Node.ofJson (Marker.format.write marker)) = .ok marker :=
    fun marker hmarker _ => Marker.read_write (h.annotations marker hmarker)
  have hinitializer : ∀ value ∈ field.initializer, ∀ path,
      readOptional path (Node.ofJson value) = .ok field.initializer := by
    intro value hvalue path
    obtain ⟨hsome, hdistinct⟩ := h.initializer value hvalue
    exact readOptional_eq_ok_iff.mpr ⟨value, Node.ofJson_means hdistinct, hsome.trans hvalue.symm⟩
  have hstatic : ∀ value ∈ (if field.isStatic then some (Json.bool true) else none), ∀ path,
      readBool path (Node.ofJson value) = .ok field.isStatic := by
    intro value hvalue path
    split at hvalue
    · next hstatic =>
        cases hvalue
        rw [hstatic]
        rfl
    · contradiction
  refine RecordFormat.read_write hnames ?_
  refine .cons ⟨field.name, "", false, none, []⟩ (carries_put fun _ => rfl) ?_
  refine .cons ⟨field.name, field.type, false, none, []⟩ (carries_put fun _ => rfl) ?_
  refine .cons ⟨field.name, field.type, field.isStatic, none, []⟩
    (carries_put_of_write hstatic ?_) ?_
  · intro hleft
    have hfalse : field.isStatic = false := by simpa using hleft
    exact congrArg (fun isStatic => FieldDecl.mk field.name field.type isStatic none []) hfalse
  refine .cons ⟨field.name, field.type, field.isStatic, field.initializer, []⟩
    (carries_put_of_write hinitializer ?_) ?_
  · exact congrArg fun found => FieldDecl.mk field.name field.type field.isStatic found []
  exact .cons field (carries_list hannotations rfl) (.nil field)

/-- A settled class declaration is read back. -/
theorem ClassDecl.read_write {decl : ClassDecl} (h : decl.IsSettled) :
    (ClassDecl.format source).read source path
      (Node.ofJson ((ClassDecl.format source).write decl)) = .ok decl := by
  have hnames : ["name", "kind", "typeParameters", "extends", "implements", "enumConstants",
      "fields"].Nodup := by decide
  have htexts : ∀ texts : List String, ∀ text ∈ texts, ∀ path,
      readText path (Node.ofJson (.string text)) = .ok text := fun _ _ _ _ => rfl
  have hfields : ∀ field ∈ decl.fields, ∀ path, (FieldDecl.format source).read source path
      (Node.ofJson ((FieldDecl.format source).write field)) = .ok field :=
    fun field hfield _ => FieldDecl.read_write (h field hfield)
  have hkind : ∀ path, readChoice ClassKind.words source path
      (Node.ofJson (.string decl.kind.word)) = .ok decl.kind := by
    intro path
    cases decl.kind <;> rfl
  refine RecordFormat.read_write hnames ?_
  refine .cons ⟨decl.name, .ordinary, [], [], [], [], []⟩ (carries_put fun _ => rfl) ?_
  refine .cons ⟨decl.name, decl.kind, [], [], [], [], []⟩ (carries_put hkind) ?_
  refine .cons ⟨decl.name, decl.kind, decl.typeParameters, [], [], [], []⟩
    (carries_list (htexts _) rfl) ?_
  refine .cons ⟨decl.name, decl.kind, decl.typeParameters, decl.extended, [], [], []⟩
    (carries_list (htexts _) rfl) ?_
  refine .cons ⟨decl.name, decl.kind, decl.typeParameters, decl.extended, decl.implemented, [], []⟩
    (carries_list (htexts _) rfl) ?_
  refine .cons ⟨decl.name, decl.kind, decl.typeParameters, decl.extended, decl.implemented,
    decl.enumConstants, []⟩ (carries_list (htexts _) rfl) ?_
  exact .cons decl (carries_list hfields rfl) (.nil decl)

/-- A settled document is read back, by either kind of source. -/
theorem Document.read_write {document : Document} (h : document.IsSettled) :
    (Document.format source).read source path
      (Node.ofJson ((Document.format source).write document)) = .ok document := by
  have hnames : ["classes"].Nodup := by decide
  have hclasses : ∀ decl ∈ document.classes, ∀ path, (ClassDecl.format source).read source path
      (Node.ofJson ((ClassDecl.format source).write decl)) = .ok decl :=
    fun decl hdecl _ => ClassDecl.read_write (h decl hdecl)
  refine RecordFormat.read_write hnames
    (.cons document (carries_put fun path => ?_) (.nil document))
  exact readList_array_eq_ok_iff.mpr ⟨trivial, readItems_ofItems hclasses path 0⟩

end

/-! ## what is written repeats no keys -/

/-- A written list repeats no keys if no item does. -/
theorem distinctKeys_writeList {α : Type} {write : α → Json} {items : List α}
    (h : ∀ item ∈ items, (write item).DistinctKeys) :
    ∀ value ∈ writeList write items, value.DistinctKeys := by
  intro value hvalue
  unfold writeList at hvalue
  split at hvalue
  · contradiction
  · cases hvalue
    exact .array (List.forall_mem_map.mpr h)

section

variable {source : Source}

theorem Marker.distinctKeys_write {marker : Marker} (h : marker.IsSettled) :
    (Marker.format.write marker).DistinctKeys := by
  have hnames : ["name", "attributes"].Nodup := by decide
  refine RecordFormat.distinctKeys_write hnames ?_
  refine List.forall_mem_cons.mpr ⟨?_, List.forall_mem_singleton.mpr ?_⟩
  · rintro _ ⟨⟩
    exact .string marker.name
  · intro value hvalue
    dsimp only at hvalue
    split at hvalue
    · contradiction
    · cases hvalue
      refine .object ?_ (List.forall_mem_map.mpr fun entry _ => .string entry.2)
      rw [List.map_map]
      exact h

theorem FieldDecl.distinctKeys_write {field : FieldDecl} (h : field.IsSettled) :
    ((FieldDecl.format source).write field).DistinctKeys := by
  have hnames : ["name", "type", "static", "initializer", "annotations"].Nodup := by decide
  refine RecordFormat.distinctKeys_write hnames ?_
  refine List.forall_mem_cons.mpr ⟨?_, List.forall_mem_cons.mpr ⟨?_, List.forall_mem_cons.mpr
    ⟨?_, List.forall_mem_cons.mpr ⟨?_, List.forall_mem_singleton.mpr ?_⟩⟩⟩⟩
  · rintro _ ⟨⟩
    exact .string field.name
  · rintro _ ⟨⟩
    exact .string field.type
  · intro value hvalue
    dsimp only at hvalue
    split at hvalue
    · cases hvalue
      exact .bool true
    · contradiction
  · exact fun value hvalue => (h.initializer value hvalue).2
  · exact distinctKeys_writeList fun marker hmarker =>
      Marker.distinctKeys_write (h.annotations marker hmarker)

/-- A settled class declaration is written without repeated keys. -/
theorem ClassDecl.distinctKeys_write {decl : ClassDecl} (h : decl.IsSettled) :
    ((ClassDecl.format source).write decl).DistinctKeys := by
  have hnames : ["name", "kind", "typeParameters", "extends", "implements", "enumConstants",
      "fields"].Nodup := by decide
  have htexts : ∀ texts, ∀ value ∈ writeList Json.string texts, value.DistinctKeys :=
    fun _ => distinctKeys_writeList fun text _ => .string text
  refine RecordFormat.distinctKeys_write hnames ?_
  refine List.forall_mem_cons.mpr ⟨?_, List.forall_mem_cons.mpr ⟨?_, List.forall_mem_cons.mpr
    ⟨htexts _, List.forall_mem_cons.mpr ⟨htexts _, List.forall_mem_cons.mpr ⟨htexts _,
      List.forall_mem_cons.mpr ⟨htexts _, List.forall_mem_singleton.mpr ?_⟩⟩⟩⟩⟩⟩
  · rintro _ ⟨⟩
    exact .string decl.name
  · rintro _ ⟨⟩
    exact .string decl.kind.word
  · exact distinctKeys_writeList fun field hfield => FieldDecl.distinctKeys_write (h field hfield)

end

namespace Document

variable {document : Document}

/-- A settled document is written without repeated keys. -/
theorem distinctKeys_toJson (h : document.IsSettled) : document.toJson.DistinctKeys := by
  have hnames : ["classes"].Nodup := by decide
  refine RecordFormat.distinctKeys_write hnames (List.forall_mem_singleton.mpr ?_)
  rintro _ ⟨⟩
  exact .array <| List.forall_mem_map.mpr fun decl hdecl =>
    ClassDecl.distinctKeys_write (h decl hdecl)

/-! ## documents -/

/-- What is read from a value is settled. -/
theorem isSettled_of_ofJson {value : Json} (h : ofJson value = .ok document) :
    document.IsSettled :=
  isSettled_of_read (Except.mapError_eq_ok_iff.mp h)

/-- Settled documents are read again from their values. -/
theorem ofJson_toJson (h : document.IsSettled) : ofJson document.toJson = .ok document :=
  Except.mapError_eq_ok_iff.mpr (read_write h)

/-- They are read again from the compact texts of their values if the reader has
room for the brackets and the doubles are read back. -/
theorem ofText_toJson (h : document.IsSettled) (hnesting : document.toJson.nesting ≤ nestingLimit)
    (hdoubles : ∀ x ∈ document.toJson.doubles, x.ReadsBack) :
    ofText (Json.render .compact document.toJson) = .ok document := by
  have hlegible := Json.legible_of_distinctKeys (distinctKeys_toJson h) hdoubles
  have hspelled := Json.spelled_compactChars hlegible
  have hmirrors : (treeOf (Json.render .compact document.toJson)).Mirrors document.toJson := by
    rw [treeOf, Json.render, String.toList_ofList]
    exact Json.parse_mirrors hlegible hspelled hnesting
  exact ofText_eq_ok_iff.mpr ⟨hidesNothing_of_distinctKeys hmirrors.distinct, document.toJson,
    Json.read_eq_ok hlegible hspelled hnesting, ofJson_toJson h⟩

/-- **Nothing is lost** when a document that has been read is written and read
again: its value gives the same document, so writing what is read gives this
value once more, and the compact text of the value gives the same document, too,
if the reader has room for the brackets and the doubles are read back. -/
theorem rereads {value : Json} (h : ofJson value = .ok document) :
    ofJson document.toJson = .ok document ∧
      (ofJson document.toJson).map toJson = .ok document.toJson ∧
      (document.toJson.nesting ≤ nestingLimit →
        (∀ x ∈ document.toJson.doubles, x.ReadsBack) →
          ofText (Json.render .compact document.toJson) = .ok document) := by
  have hsettled := isSettled_of_ofJson h
  have hvalue := ofJson_toJson hsettled
  refine ⟨hvalue, ?_, ofText_toJson hsettled⟩
  rw [hvalue]
  rfl

/-- An enumeration, its kind an object, with one field an object and one an array. -/
def shapesValue : Json :=
  .object [("classes", .array [.object [
    ("kind", .object [("enum", .null)]),
    ("fields", .array [
      .object [("type", .string "int"), ("initializer", .null), ("name", .string "sides")],
      .array [.string "area", .string "double", .bool true, Json.doubleZero,
        .array [.array [.string "Key", .object [("b", .string "x"), ("a", .string "y")]]]]]),
    ("name", .string "Shape"),
    ("enumConstants", .array [.string "ROUND"])]])]

/-- The document in it. -/
def shapes : Document :=
  ⟨[⟨"Shape", .enumeration, [], [], [], ["ROUND"],
    [⟨"sides", "int", false, none, []⟩,
      ⟨"area", "double", true, some Json.doubleZero, [⟨"Key", [("b", "x"), ("a", "y")]⟩]⟩]⟩]⟩

theorem rereads_shapes :
    ofJson shapesValue = .ok shapes ∧ ofJson shapes.toJson = .ok shapes ∧
      ofText (Json.render .compact shapes.toJson) = .ok shapes := by
  have h : ofJson shapesValue = .ok shapes := rfl
  obtain ⟨hvalue, -, htext⟩ := rereads h
  have hdoubles : shapes.toJson.doubles = [⟨0, by decide⟩] := rfl
  refine ⟨h, hvalue, htext (by decide) ?_⟩
  rw [hdoubles]
  exact List.forall_mem_singleton.mpr readsBack_doubleZero

end Document

end Exemplar
