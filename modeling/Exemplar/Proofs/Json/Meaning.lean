import Exemplar.Json.Reader
import Exemplar.Proofs.Except
import Exemplar.Proofs.Json.Entries

/-!
# Exemplar.Proofs.Json.Meaning

The value of a tree.  A tree has a value if nothing in it is unread and every
array and object ends well; the value does not depend on where the tree stands,
and its objects do not repeat keys, since the last of the entries with one key
replaces the others.

* `Node.Means`, `Node.Fails` — what a tree means, wherever it stands;
* `array_means_iff`, `object_means_iff` — trees of arrays and objects;
* `distinctKeys_of_means` — values of trees repeat no keys;
* `ofJson_means` — a value that repeats no keys is the value of its tree;
* `Node.Mirrors` — a tree that repeats no keys either.
-/

namespace Exemplar

/-! ## endings -/

/-- The array or object is closed, or ends with its last part. -/
def Ending.IsWhole : Ending → Prop
  | closed _ | cut => True
  | broken _ _ | keyOnly _ _ | tooDeep _ => False

/-- The check of an ending says whether it is whole. -/
theorem Ending.check_eq_ok_iff {path : Path} {isObject : Bool} {ending : Ending} :
    ending.check path isObject = .ok () ↔ ending.IsWhole := by
  cases ending <;> simp [check, IsWhole]

namespace Node

/-! ## induction -/

/-- What holds of a tree if it holds of its parts holds of every tree. -/
@[elab_as_elim]
theorem induct {P : Node → Prop}
    (scalar : ∀ value start stop, P (.scalar value start stop))
    (array : ∀ start items ending, (∀ item ∈ items, P item) → P (.array start items ending))
    (object : ∀ start entries ending, (∀ entry ∈ entries, P entry.2) →
      P (.object start entries ending))
    (unread : ∀ error rest, P (.unread error rest)) (node : Node) : P node :=
  @Node.rec P (fun items => ∀ item ∈ items, P item) (fun entries => ∀ entry ∈ entries, P entry.2)
    (fun entry => P entry.2) scalar array object unread
    (fun _ h => absurd h List.not_mem_nil)
    (fun _ _ hfirst hrest => List.forall_mem_cons.mpr ⟨hfirst, hrest⟩)
    (fun _ h => absurd h List.not_mem_nil)
    (fun _ _ hfirst hrest => List.forall_mem_cons.mpr ⟨hfirst, hrest⟩)
    (fun _ _ h => h) node

/-! ## what trees mean -/

/-- The tree has this value, wherever it stands. -/
def Means (node : Node) (value : Json) : Prop := ∀ path, node.toJson path = .ok value

/-- The tree has no value, wherever it stands. -/
def Fails (node : Node) : Prop := ∀ path, ∃ e, node.toJson path = .error e

/-- The entry of a tree has this key, and its tree this value. -/
def EntryMeans (part : Key × Node) (entry : String × Json) : Prop :=
  part.1.name = entry.1 ∧ part.2.Means entry.2

/-- A tree has at most one value. -/
theorem Means.unique {node : Node} {value other : Json} (h : node.Means value)
    (hother : node.Means other) : value = other :=
  Except.ok.inj ((h []).symm.trans (hother []))

theorem itemsToJson_of_means {parts : List Node} {items : List Json}
    (h : List.Forall₂ Means parts items) (path : Path) (position : Nat) :
    itemsToJson path position parts = .ok items := by
  induction h generalizing position with
  | nil => rfl
  | cons hpart _ ih =>
      rw [itemsToJson, hpart, ih]
      rfl

theorem entriesToJson_of_means {parts : List (Key × Node)} {entries : List (String × Json)}
    (h : List.Forall₂ EntryMeans parts entries) (path : Path) :
    entriesToJson path parts = .ok entries := by
  induction h with
  | nil => rfl
  | @cons part entry _ _ hpart _ ih =>
      obtain ⟨key, node⟩ := part
      rw [entriesToJson, hpart.2, ih, hpart.1]
      rfl

section

variable {start : Nat} {ending : Ending} {value : Json}

/-- A whole array has the values of its parts. -/
theorem array_means {parts : List Node} {items : List Json} (h : List.Forall₂ Means parts items)
    (hending : ending.IsWhole) : (Node.array start parts ending).Means (.array items) := by
  intro path
  have hcheck : ending.check path false = .ok () := Ending.check_eq_ok_iff.mpr hending
  rw [toJson, itemsToJson_of_means h, hcheck]
  rfl

/-- A whole object has the values of its parts; a repeated key keeps the last
one. -/
theorem object_means {parts : List (Key × Node)} {entries : List (String × Json)}
    (h : List.Forall₂ EntryMeans parts entries) (hending : ending.IsWhole) :
    (Node.object start parts ending).Means (.object (Json.putEntries [] entries)) := by
  intro path
  have hcheck : ending.check path true = .ok () := Ending.check_eq_ok_iff.mpr hending
  rw [toJson, entriesToJson_of_means h, hcheck]
  rfl

/-! ## one place is enough -/

/-- If the parts have values, each part has its own. -/
theorem means_of_itemsToJson {parts : List Node}
    (hparts : ∀ part ∈ parts, ∀ {path value}, part.toJson path = .ok value → part.Means value)
    {path : Path} {position : Nat} {items : List Json}
    (h : itemsToJson path position parts = .ok items) : List.Forall₂ Means parts items := by
  induction parts generalizing position items with
  | nil =>
      cases h
      exact .nil
  | cons part parts ih =>
      obtain ⟨hpart, hparts⟩ := List.forall_mem_cons.mp hparts
      rw [itemsToJson] at h
      obtain ⟨_, hitem, h⟩ := Except.bind_eq_ok_iff.mp h
      obtain ⟨_, hitems, h⟩ := Except.bind_eq_ok_iff.mp h
      cases h
      exact .cons (hpart hitem) (ih hparts hitems)

theorem means_of_entriesToJson {parts : List (Key × Node)}
    (hparts : ∀ part ∈ parts, ∀ {path value},
      part.2.toJson path = .ok value → part.2.Means value)
    {path : Path} {entries : List (String × Json)}
    (h : entriesToJson path parts = .ok entries) : List.Forall₂ EntryMeans parts entries := by
  induction parts generalizing entries with
  | nil =>
      cases h
      exact .nil
  | cons part parts ih =>
      obtain ⟨hpart, hparts⟩ := List.forall_mem_cons.mp hparts
      rw [entriesToJson] at h
      obtain ⟨_, hvalue, h⟩ := Except.bind_eq_ok_iff.mp h
      obtain ⟨_, hvalues, h⟩ := Except.bind_eq_ok_iff.mp h
      cases h
      exact .cons ⟨rfl, hpart hvalue⟩ (ih hparts hvalues)

/-- A tree that has a value somewhere has it everywhere. -/
theorem means_of_toJson {node : Node} {path : Path} (h : node.toJson path = .ok value) :
    node.Means value := by
  induction node using Node.induct generalizing path value with
  | scalar scalar start stop => exact fun _ => h
  | array start parts ending ih =>
      rw [toJson] at h
      obtain ⟨items, hitems, h⟩ := Except.bind_eq_ok_iff.mp h
      obtain ⟨_, hending, h⟩ := Except.bind_eq_ok_iff.mp h
      cases h
      exact array_means (means_of_itemsToJson (fun part hpart _ _ => ih part hpart) hitems)
        (Ending.check_eq_ok_iff.mp hending)
  | object start parts ending ih =>
      rw [toJson] at h
      obtain ⟨entries, hentries, h⟩ := Except.bind_eq_ok_iff.mp h
      obtain ⟨_, hending, h⟩ := Except.bind_eq_ok_iff.mp h
      cases h
      exact object_means (means_of_entriesToJson (fun part hpart _ _ => ih part hpart) hentries)
        (Ending.check_eq_ok_iff.mp hending)
  | unread error rest => contradiction

/-! ## the value of a tree by its parts -/

/-- A scalar has the value that it stands for. -/
theorem scalar_means_iff {scalar : Scalar} {stop : Nat} :
    (Node.scalar scalar start stop).Means value ↔ value = scalar.toJson :=
  ⟨fun h => Except.ok.inj (h []).symm, fun h => h ▸ fun _ => rfl⟩

/-- An array has a value if it is whole and its parts have values. -/
theorem array_means_iff {parts : List Node} :
    (Node.array start parts ending).Means value ↔
      ending.IsWhole ∧ ∃ items, List.Forall₂ Means parts items ∧ value = .array items := by
  constructor
  · intro h
    have h := h []
    rw [toJson] at h
    obtain ⟨items, hitems, h⟩ := Except.bind_eq_ok_iff.mp h
    obtain ⟨_, hending, h⟩ := Except.bind_eq_ok_iff.mp h
    cases h
    exact ⟨Ending.check_eq_ok_iff.mp hending, items,
      means_of_itemsToJson (fun _ _ _ _ => means_of_toJson) hitems, rfl⟩
  · rintro ⟨hending, items, hitems, rfl⟩
    exact array_means hitems hending

/-- An object has a value if it is whole and its parts have values. -/
theorem object_means_iff {parts : List (Key × Node)} :
    (Node.object start parts ending).Means value ↔
      ending.IsWhole ∧ ∃ entries, List.Forall₂ EntryMeans parts entries ∧
        value = .object (Json.putEntries [] entries) := by
  constructor
  · intro h
    have h := h []
    rw [toJson] at h
    obtain ⟨entries, hentries, h⟩ := Except.bind_eq_ok_iff.mp h
    obtain ⟨_, hending, h⟩ := Except.bind_eq_ok_iff.mp h
    cases h
    exact ⟨Ending.check_eq_ok_iff.mp hending, entries,
      means_of_entriesToJson (fun _ _ _ _ => means_of_toJson) hentries, rfl⟩
  · rintro ⟨hending, entries, hentries, rfl⟩
    exact object_means hentries hending

/-- What could not be read has no value. -/
theorem not_unread_means {error : SyntaxError} {rest : Lexemes} :
    ¬ (Node.unread error rest).Means value :=
  fun h => by
    have h := h []
    contradiction

theorem ofJson_eq_scalar_iff {value : Json} {scalar : Scalar} {start stop : Nat} :
    ofJson value = .scalar scalar start stop ↔
      value = scalar.toJson ∧ start = 0 ∧ stop = 0 := by
  cases value <;> cases scalar <;> simp [ofJson, Scalar.toJson, eq_comm]

/-- Only a scalar has a scalar's value. -/
theorem means_scalar_iff {node : Node} {scalar : Scalar} :
    node.Means scalar.toJson ↔ ∃ start stop, node = .scalar scalar start stop := by
  constructor
  · intro h
    cases node with
    | scalar other start stop =>
        have hvalue := scalar_means_iff.mp h
        refine ⟨start, stop, ?_⟩
        cases scalar <;> cases other <;> simp_all [Scalar.toJson]
    | array start parts ending =>
        obtain ⟨_, _, _, hvalue⟩ := array_means_iff.mp h
        cases scalar <;> contradiction
    | object start parts ending =>
        obtain ⟨_, _, _, hvalue⟩ := object_means_iff.mp h
        cases scalar <;> contradiction
    | unread error rest => exact absurd h not_unread_means
  · rintro ⟨start, stop, rfl⟩
    exact fun _ => rfl

/-- Trees have the keys of what they mean. -/
theorem keys_of_entryMeans {parts : List (Key × Node)} {entries : List (String × Json)}
    (h : List.Forall₂ EntryMeans parts entries) :
    entries.map (·.1) = parts.map (·.1.name) := by
  induction h with
  | nil => rfl
  | cons hpart _ ih => rw [List.map_cons, List.map_cons, ih, hpart.1]

end

end Node

/-! ## values that repeat no keys -/

/-- The keys of every object in the value are different from each other. -/
inductive Json.DistinctKeys : Json → Prop where
  | null : DistinctKeys .null
  | bool (value : Bool) : DistinctKeys (.bool value)
  | number (value : Number) : DistinctKeys (.number value)
  | string (value : String) : DistinctKeys (.string value)
  | array {items : List Json} : (∀ item ∈ items, DistinctKeys item) → DistinctKeys (.array items)
  | object {entries : List (String × Json)} : (entries.map (·.1)).Nodup →
      (∀ entry ∈ entries, DistinctKeys entry.2) → DistinctKeys (.object entries)

namespace Node

/-- The value of a tree repeats no keys. -/
theorem distinctKeys_of_means {node : Node} {value : Json} (h : node.Means value) :
    value.DistinctKeys := by
  induction node using Node.induct generalizing value with
  | scalar scalar start stop =>
      cases scalar_means_iff.mp h
      cases scalar <;> constructor
  | array start parts ending ih =>
      obtain ⟨_, items, hitems, rfl⟩ := array_means_iff.mp h
      refine .array fun item hitem => ?_
      obtain ⟨part, hpart, hmeans⟩ := exists_left_of_forall₂ hitems hitem
      exact ih part hpart hmeans
  | object start parts ending ih =>
      obtain ⟨_, entries, hentries, rfl⟩ := object_means_iff.mp h
      refine .object (Json.nodup_putEntries entries) fun entry hentry => ?_
      have hentry : entry ∈ entries :=
        (Json.mem_of_mem_putEntries hentry).resolve_left List.not_mem_nil
      obtain ⟨part, hpart, _, hmeans⟩ := exists_left_of_forall₂ hentries hentry
      exact ih part hpart hmeans
  | unread error rest => exact absurd h not_unread_means

theorem ofItems_means {items : List Json} (h : ∀ item ∈ items, (ofJson item).Means item) :
    List.Forall₂ Means (ofItems items) items := by
  induction items with
  | nil => exact .nil
  | cons item items ih =>
      obtain ⟨hitem, hitems⟩ := List.forall_mem_cons.mp h
      exact .cons hitem (ih hitems)

theorem ofEntries_means {entries : List (String × Json)}
    (h : ∀ entry ∈ entries, (ofJson entry.2).Means entry.2) :
    List.Forall₂ EntryMeans (ofEntries entries) entries := by
  induction entries with
  | nil => exact .nil
  | cons entry entries ih =>
      obtain ⟨hentry, hentries⟩ := List.forall_mem_cons.mp h
      exact .cons ⟨rfl, hentry⟩ (ih hentries)

/-- A value that repeats no keys is the value of its tree. -/
theorem ofJson_means {value : Json} (h : value.DistinctKeys) : (ofJson value).Means value := by
  induction h with
  | null | bool | number | string => exact fun _ => rfl
  | array _ ih => exact array_means (ofItems_means ih) trivial
  | @object entries hnodup _ ih =>
      have hmeans : (ofJson (.object entries)).Means (.object (Json.putEntries [] entries)) :=
        object_means (ofEntries_means ih) trivial
      rw [Json.putEntries_of_nodup hnodup] at hmeans
      exact hmeans

/-! ## trees that repeat no keys -/

/-- The keys of every object in the tree are different from each other. -/
inductive DistinctKeys : Node → Prop where
  | scalar (value : Scalar) (start stop : Nat) : DistinctKeys (.scalar value start stop)
  | array {start : Nat} {items : List Node} {ending : Ending} :
      (∀ item ∈ items, DistinctKeys item) → DistinctKeys (.array start items ending)
  | object {start : Nat} {entries : List (Key × Node)} {ending : Ending} :
      (entries.map (·.1.name)).Nodup → (∀ entry ∈ entries, DistinctKeys entry.2) →
        DistinctKeys (.object start entries ending)

/-- The tree has this value, and like the value it repeats no keys. -/
structure Mirrors (node : Node) (value : Json) : Prop where
  means : node.Means value
  distinct : node.DistinctKeys

/-- The entry of a tree has this key, and its tree mirrors this value. -/
def EntryMirrors (part : Key × Node) (entry : String × Json) : Prop :=
  part.1.name = entry.1 ∧ part.2.Mirrors entry.2

/-- A closed array mirrors its items. -/
theorem array_mirrors {parts : List Node} {items : List Json}
    (h : List.Forall₂ Mirrors parts items) (start stop : Nat) :
    (Node.array start parts (.closed stop)).Mirrors (.array items) where
  means := array_means (h.imp fun _ _ hpart => hpart.means) trivial
  distinct := .array fun part hpart => by
    obtain ⟨_, _, hmirrors⟩ := exists_right_of_forall₂ h hpart
    exact hmirrors.distinct

/-- A closed object mirrors its entries if no key is repeated. -/
theorem object_mirrors {parts : List (Key × Node)} {entries : List (String × Json)}
    (h : List.Forall₂ EntryMirrors parts entries) (hnodup : (entries.map (·.1)).Nodup)
    (start stop : Nat) : (Node.object start parts (.closed stop)).Mirrors (.object entries) := by
  have hmeans : List.Forall₂ EntryMeans parts entries :=
    h.imp fun _ _ hpart => ⟨hpart.1, hpart.2.means⟩
  refine ⟨?_, .object (keys_of_entryMeans hmeans ▸ hnodup) fun part hpart => ?_⟩
  · rw [← Json.putEntries_of_nodup hnodup]
    exact object_means hmeans trivial
  · obtain ⟨_, _, hmirrors⟩ := exists_right_of_forall₂ h hpart
    exact hmirrors.2.distinct

end Node

end Exemplar
