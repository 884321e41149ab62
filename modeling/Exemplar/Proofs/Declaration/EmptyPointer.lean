import Exemplar.Loading
import Exemplar.Proofs.Declaration.Agreement

/-!
# Exemplar.Proofs.Declaration.EmptyPointer

Reading a document from a file, and reading the part of the file that the empty
pointer selects, which is all of it.  Through the pointer the file becomes a
value first, in which a repeated key has only its last entry; a record that
repeats a key is refused if it is read directly.  So the two differ on files
that hide something behind a repeated key, and only on these.

* `Document.HidesNothing` — no key of a record is repeated, no kind of a class
  is said twice, and only strings are hidden in tables of attributes;
* `ofFile_eq_ok_iff_empty_pointer` — reading directly is reading through the
  empty pointer what hides nothing.
-/

namespace Exemplar

/-! ## what documents hide -/

/-- Nothing is hidden in the tree of an annotation. -/
def Marker.HidesNothing : Node → Prop :=
  Node.FieldsHideNothing ["name", "attributes"] fun name node =>
    name = "attributes" → node.HidesOnlyText

/-- Nothing is hidden in the tree of a field declaration, the initializer apart. -/
def FieldDecl.HidesNothing : Node → Prop :=
  Node.FieldsHideNothing ["name", "type", "static", "initializer", "annotations"] fun name node =>
    name = "annotations" → node.ItemsHideNothing Marker.HidesNothing

/-- Nothing is hidden in the tree of a class declaration. -/
def ClassDecl.HidesNothing : Node → Prop :=
  Node.FieldsHideNothing ["name", "kind", "typeParameters", "extends", "implements",
      "enumConstants", "fields"] fun name node =>
    (name = "kind" → node.RepeatsNoKey) ∧
      (name = "fields" → node.ItemsHideNothing FieldDecl.HidesNothing)

/-- Nothing is hidden in the tree of a document. -/
def Document.HidesNothing : Node → Prop :=
  Node.FieldsHideNothing ["classes"] fun name node =>
    name = "classes" → node.ItemsHideNothing ClassDecl.HidesNothing

/-! ### trees that repeat no keys -/

namespace Node

variable {node : Node}

/-- A record that repeats no key hides no field. -/
theorem fieldsHideNothing_of_distinctKeys (h : node.DistinctKeys) {names : List String}
    {HidesNothing : String → Node → Prop}
    (hparts : ∀ (name : String) (part : Node), part.DistinctKeys → HidesNothing name part) :
    node.FieldsHideNothing names HidesNothing := by
  cases h with
  | object hnodup hentries => exact ⟨hnodup, fun entry hentry => hparts _ _ (hentries entry hentry)⟩
  | array hitems =>
      exact fun part hpart => hparts _ _ (hitems part.2 (List.of_mem_zip hpart).2)
  | scalar => trivial

/-- A list of such trees hides nothing. -/
theorem itemsHideNothing_of_distinctKeys (h : node.DistinctKeys) {HidesNothing : Node → Prop}
    (hitems : ∀ item : Node, item.DistinctKeys → HidesNothing item) :
    node.ItemsHideNothing HidesNothing := by
  cases h with
  | array hdistinct => exact fun item hitem => hitems item (hdistinct item hitem)
  | _ => trivial

/-- A word that repeats no key hides nothing. -/
theorem repeatsNoKey_of_distinctKeys (h : node.DistinctKeys) : node.RepeatsNoKey := by
  cases h with
  | object hnodup _ => exact hnodup
  | _ => trivial

/-- A table that repeats no key hides no value at all. -/
theorem hidesOnlyText_of_distinctKeys (h : node.DistinctKeys) : node.HidesOnlyText := by
  cases h with
  | object hnodup _ =>
      exact (List.pairwise_map.mp hnodup).imp fun hne heq => absurd heq hne
  | _ => trivial

end Node

/-- A document that repeats no key hides nothing. -/
theorem Document.hidesNothing_of_distinctKeys {node : Node} (h : node.DistinctKeys) :
    Document.HidesNothing node := by
  have hmarker : ∀ node : Node, node.DistinctKeys → Marker.HidesNothing node := fun _ h =>
    Node.fieldsHideNothing_of_distinctKeys h fun _ _ hpart _ =>
      Node.hidesOnlyText_of_distinctKeys hpart
  have hfield : ∀ node : Node, node.DistinctKeys → FieldDecl.HidesNothing node := fun _ h =>
    Node.fieldsHideNothing_of_distinctKeys h fun _ _ hpart _ =>
      Node.itemsHideNothing_of_distinctKeys hpart hmarker
  have hclass : ∀ node : Node, node.DistinctKeys → ClassDecl.HidesNothing node := fun _ h =>
    Node.fieldsHideNothing_of_distinctKeys h fun _ _ hpart =>
      ⟨fun _ => Node.repeatsNoKey_of_distinctKeys hpart,
        fun _ => Node.itemsHideNothing_of_distinctKeys hpart hfield⟩
  exact Node.fieldsHideNothing_of_distinctKeys h fun _ _ hpart _ =>
    Node.itemsHideNothing_of_distinctKeys hpart hclass

/-! ## fields -/

/-- The readers of a field that is put into the record agree if the readers of its
value do. -/
theorem agrees_put {α β : Type} {direct indirect : NodeReader β} {HidesNothing : Node → Prop}
    (h : Agrees direct indirect HidesNothing) (put : α → β → α) (record : α) :
    Agrees (fun path node => do return put record (← direct path node))
      (fun path node => do return put record (← indirect path node)) HidesNothing := by
  intro path path' node x
  simp only [Except.bind_eq_ok_iff, Except.pure_eq_ok_iff]
  constructor
  · rintro ⟨y, hy, hput⟩
    obtain ⟨hnode, value, hmeans, hvalue⟩ := (h path path' node y).mp hy
    exact ⟨hnode, value, hmeans, y, hvalue, hput⟩
  · rintro ⟨hnode, value, hmeans, y, hvalue, hput⟩
    exact ⟨y, (h path path' node y).mpr ⟨hnode, value, hmeans, hvalue⟩, hput⟩

/-- Two readers agree under any condition that says the same. -/
theorem Agrees.congr {α : Type} {direct indirect : NodeReader α} {P Q : Node → Prop}
    (h : Agrees direct indirect P) (hPQ : ∀ node, P node ↔ Q node) : Agrees direct indirect Q := by
  intro path path' node x
  rw [← hPQ node]
  exact h path path' node x

namespace FieldFormat

variable {α β : Type}

/-- A field that puts a value into its record agrees if the readers of the value
do. -/
theorem agreesWith_put {direct indirect : NodeReader β} {HidesNothing : String → Node → Prop}
    {P : Node → Prop} (h : Agrees direct indirect P) {name : String}
    (hname : ∀ node, P node ↔ HidesNothing name node) (isRequired : Bool) (put : α → β → α)
    (write write' : α → Option Json) :
    AgreesWith HidesNothing
      ⟨name, isRequired, fun path node record => do return put record (← direct path node), write⟩
      ⟨name, isRequired, fun path node record => do return put record (← indirect path node),
        write'⟩ where
  name := rfl
  isRequired := rfl
  read record := (agrees_put h put record).congr hname

end FieldFormat

/-! ## records -/

/-- Annotations are read alike from a text and from its value. -/
theorem Marker.agrees_read :
    Agrees (Marker.format.read .text) (Marker.format.read .value) HidesNothing := by
  refine RecordFormat.AgreesWith.agrees_read ⟨rfl, .cons ?_ (.cons ?_ .nil)⟩
  · exact FieldFormat.agreesWith_put agrees_readText (by simp) _ _ _ _
  · exact FieldFormat.agreesWith_put agrees_readTable (by simp) _ _ _ _

/-- So are field declarations. -/
theorem FieldDecl.agrees_read :
    Agrees ((FieldDecl.format .text).read .text) ((FieldDecl.format .value).read .value)
      HidesNothing := by
  refine RecordFormat.AgreesWith.agrees_read
    ⟨rfl, .cons ?_ (.cons ?_ (.cons ?_ (.cons ?_ (.cons ?_ .nil))))⟩
  · exact FieldFormat.agreesWith_put agrees_readText (by simp) _ _ _ _
  · exact FieldFormat.agreesWith_put agrees_readText (by simp) _ _ _ _
  · exact FieldFormat.agreesWith_put agrees_readBool (by simp) _ _ _ _
  · exact FieldFormat.agreesWith_put agrees_readOptional (by simp) _ _ _ _
  · exact FieldFormat.agreesWith_put (agrees_readList Marker.agrees_read) (by simp) _ _ _ _

/-- So are class declarations. -/
theorem ClassDecl.agrees_read :
    Agrees ((ClassDecl.format .text).read .text) ((ClassDecl.format .value).read .value)
      HidesNothing := by
  refine RecordFormat.AgreesWith.agrees_read
    ⟨rfl, .cons ?_ (.cons ?_ (.cons ?_ (.cons ?_ (.cons ?_ (.cons ?_ (.cons ?_ .nil))))))⟩
  · exact FieldFormat.agreesWith_put agrees_readText (by simp) _ _ _ _
  · exact FieldFormat.agreesWith_put (agrees_readChoice _) (by simp) _ _ _ _
  · exact FieldFormat.agreesWith_put (agrees_readList agrees_readText) (by simp) _ _ _ _
  · exact FieldFormat.agreesWith_put (agrees_readList agrees_readText) (by simp) _ _ _ _
  · exact FieldFormat.agreesWith_put (agrees_readList agrees_readText) (by simp) _ _ _ _
  · exact FieldFormat.agreesWith_put (agrees_readList agrees_readText) (by simp) _ _ _ _
  · exact FieldFormat.agreesWith_put (agrees_readList FieldDecl.agrees_read) (by simp) _ _ _ _

/-- So are documents: in a text nothing may be hidden, in a value nothing is. -/
theorem Document.agrees_read :
    Agrees ((Document.format .text).read .text) ((Document.format .value).read .value)
      HidesNothing := by
  refine RecordFormat.AgreesWith.agrees_read ⟨rfl, .cons ?_ .nil⟩
  exact FieldFormat.agreesWith_put (agrees_readList ClassDecl.agrees_read) (by simp) _ _ _ _

/-! ## documents -/

namespace Document

/-- The tree of a text, as documents are read from it. -/
def treeOf (text : String) : Node := Node.parse nestingLimit (Lexemes.scan text.toList)

/-- A document is read from a text exactly if the text hides nothing and its
value is that document. -/
theorem ofText_eq_ok_iff {text : String} {document : Document} :
    ofText text = .ok document ↔
      HidesNothing (treeOf text) ∧
        ∃ value, Json.read text = .ok value ∧ ofJson value = .ok document := by
  have hread : ∀ {value}, Json.read text = .ok value ↔ (treeOf text).Means value := fun {value} =>
    Except.mapError_eq_ok_iff.trans ⟨Node.means_of_toJson, fun h => h []⟩
  have hvalue : ∀ {value}, ofJson value = .ok document ↔
      (format .value).read .value [] (Node.ofJson value) = .ok document :=
    Except.mapError_eq_ok_iff
  simp only [hread, hvalue]
  exact Except.mapError_eq_ok_iff.trans (agrees_read [] [] (treeOf text) document)

/-- **Reading directly** gives a document exactly where reading through the
empty pointer gives the same document and the file hides nothing. -/
theorem ofFile_eq_ok_iff_empty_pointer (path text : String) (document : Document) :
    ofFile path (.ok text) none = .ok document ↔
      ofFile path (.ok text) (some "") = .ok document ∧ HidesNothing (treeOf text) := by
  have hdirect : ofFile path (.ok text) none = .ok document ↔ ofText text = .ok document :=
    Except.mapError_eq_ok_iff
  have hpointer : ofFile path (.ok text) (some "") = .ok document ↔
      ∃ value, Json.read text = .ok value ∧ ofJson value = .ok document := by
    have hwhole : ∀ value : Json, value.pointer? "" = some value := fun _ => rfl
    show ofPart text (some "") = .ok document ↔ _
    simp only [ofPart, Except.bind_eq_ok_iff, Except.mapError_eq_ok_iff, hwhole]
  rw [hdirect, hpointer, ofText_eq_ok_iff, and_comm]

/-- A file that hides its first list of classes behind the second. -/
def repeated : String := "\x7b\"classes\":[\x7b\"name\":\"a.A\"\x7d],\"classes\":[]\x7d"

-- the class is lost through the pointer, and the file is refused without it
example : ofFile "m.json" (.ok repeated) (some "") = .ok ⟨[]⟩ ∧
    (ofFile "m.json" (.ok repeated) none).isOk = false :=
  ⟨by cbv, by cbv⟩

end Document

end Exemplar
