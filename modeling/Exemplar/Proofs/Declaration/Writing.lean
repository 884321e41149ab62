import Exemplar.Declaration.Document
import Exemplar.Proofs.Declaration.Format

/-!
# Exemplar.Proofs.Declaration.Writing

Records that are written and read again.  Each field either is written, and is
then read into the record that is built up, or is left out, where the blank
record already has its value.

* `FieldFormat.Carries`, `Carries` — writing and reading one field, or the fields in
  order;
* `RecordFormat.read_write` — a record whose fields are carried is read again;
* `RecordFormat.read_keeps` — what holds of the blank record and is kept by every
  field holds of what is read;
* `RecordFormat.distinctKeys_write` — objects of records repeat no keys.
-/

namespace Exemplar

variable {α β : Type}

/-- Writing a field of the first record and reading it into the second gives the third; a field
that is left out changes nothing. -/
def FieldFormat.Carries (field : FieldFormat α) (record before after : α) : Prop :=
  match field.write record with
  | some value => ∀ path, field.read path (Node.ofJson value) before = .ok after
  | none => field.isRequired = false ∧ after = before

/-- Writing fields of a record and reading them one after the other. -/
inductive Carries (record : α) : List (FieldFormat α) → α → α → Prop where
  | nil (before : α) : Carries record [] before before
  | cons {field : FieldFormat α} {fields : List (FieldFormat α)} {before after : α} (next : α) :
      field.Carries record before next → Carries record fields next after →
        Carries record (field :: fields) before after

/-- Reading the field keeps this. -/
def FieldFormat.Keeps (field : FieldFormat α) (P : α → Prop) : Prop :=
  ∀ path node before after, P before → field.read path node before = .ok after → P after

namespace RecordFormat

variable {format : RecordFormat α} {source : Source} {path : Path} {record : α}

/-! ## reading what is written -/

/-- With different names, each field is found by its own. -/
theorem find?_name_of_mem {fields : List (FieldFormat α)} (hnames : (fields.map (·.name)).Nodup)
    {field : FieldFormat α} (h : field ∈ fields) :
    fields.find? (·.name = field.name) = some field := by
  induction fields with
  | nil => contradiction
  | cons first fields ih =>
      obtain ⟨hfirst, hnames⟩ := List.nodup_cons.mp hnames
      obtain rfl | h := List.mem_cons.mp h
      · simp
      · have hne : first.name ≠ field.name := fun heq =>
          hfirst (List.mem_map.mpr ⟨field, h, heq.symm⟩)
        simpa [hne] using ih hnames h

/-- The entries that are written for fields. -/
def writeFields (record : α) (fields : List (FieldFormat α)) : List (String × Json) :=
  fields.filterMap fun field => (field.write record).map (field.name, ·)

theorem writeFields_cons_of_eq_none {field : FieldFormat α} (h : field.write record = none)
    (fields : List (FieldFormat α)) :
    writeFields record (field :: fields) = writeFields record fields := by
  simp [writeFields, h]

theorem writeFields_cons_of_eq_some {field : FieldFormat α} {value : Json}
    (h : field.write record = some value) (fields : List (FieldFormat α)) :
    writeFields record (field :: fields) = (field.name, value) :: writeFields record fields := by
  simp [writeFields, h]

/-- **Writing and reading**: reading what the fields write builds up the record. -/
theorem readFields_writeFields (hnames : (format.fields.map (·.name)).Nodup)
    {fields : List (FieldFormat α)} {before after : α} (h : Carries record fields before after)
    (hfields : fields ⊆ format.fields) (hdistinct : (fields.map (·.name)).Nodup)
    {seen : List String} (hseen : ∀ field ∈ fields, field.name ∉ seen) :
    ∃ seen', format.readFields path seen before (Node.ofEntries (writeFields record fields)) =
        .ok (seen', after) ∧ seen ⊆ seen' ∧
      ∀ field ∈ fields, field.isRequired = true → field.name ∈ seen' := by
  induction h generalizing seen with
  | nil before => exact ⟨seen, rfl, fun _ h => h, fun _ h => absurd h List.not_mem_nil⟩
  | @cons field fields before after next hfield _ ih =>
      obtain ⟨hmem, hfields⟩ := List.cons_subset.mp hfields
      obtain ⟨hname, hdistinct⟩ := List.nodup_cons.mp hdistinct
      obtain ⟨hnew, hseen⟩ := List.forall_mem_cons.mp hseen
      unfold FieldFormat.Carries at hfield
      cases hwrite : field.write record with
      | none =>
          rw [hwrite] at hfield
          obtain ⟨hoptional, rfl⟩ := hfield
          obtain ⟨seen', hread, hsubset, hall⟩ := ih hfields hdistinct hseen
          rw [writeFields_cons_of_eq_none hwrite]
          refine ⟨seen', hread, hsubset, List.forall_mem_cons.mpr ⟨?_, hall⟩⟩
          exact fun hrequired => by simp [hoptional] at hrequired
      | some value =>
          rw [hwrite] at hfield
          have hseen' : ∀ field' ∈ fields, field'.name ∉ field.name :: seen := by
            intro field' hmem' hin
            obtain heq | hin := List.mem_cons.mp hin
            · exact hname (List.mem_map.mpr ⟨field', hmem', heq⟩)
            · exact hseen field' hmem' hin
          obtain ⟨seen', hread, hsubset, hall⟩ := ih hfields hdistinct hseen'
          obtain ⟨hin, hsubset⟩ := List.cons_subset.mp hsubset
          refine ⟨seen', ?_, hsubset, List.forall_mem_cons.mpr ⟨fun _ => hin, hall⟩⟩
          rw [writeFields_cons_of_eq_some hwrite]
          exact readFields_cons_eq_ok_iff.mpr
            ⟨field, find?_name_of_mem hnames hmem, hnew, next, hfield _, hread⟩

/-- **Writing and reading**: a record whose fields are carried is read again. -/
theorem read_write (hnames : (format.fields.map (·.name)).Nodup)
    (h : Carries record format.fields format.blank record) :
    format.read source path (Node.ofJson (format.write record)) = .ok record := by
  obtain ⟨seen, hread, -, hrequired⟩ :=
    readFields_writeFields hnames h (fun _ h => h) hnames fun _ _ => List.not_mem_nil
  exact read_object_eq_ok_iff.mpr ⟨trivial, seen, hread, hrequired⟩

/-! ## what reading keeps -/

section

variable {P : α → Prop} {seen : List String} {before x : α}

/-- Reading entries keeps what all fields keep. -/
theorem readFields_keeps (hfields : ∀ field ∈ format.fields, field.Keeps P) (hbefore : P before)
    {entries : List (Key × Node)} {out : List String × α}
    (h : format.readFields path seen before entries = .ok out) : P out.2 := by
  induction entries generalizing seen before with
  | nil =>
      cases h
      exact hbefore
  | cons entry entries ih =>
      obtain ⟨field, hfield, -, next, hnext, h⟩ := readFields_cons_eq_ok_iff.mp h
      have hkeeps : field.Keeps P := hfields field (List.mem_of_find?_eq_some hfield)
      exact ih (hkeeps _ _ _ _ hbefore hnext) h

/-- Reading items keeps what all fields keep. -/
theorem readElements_keeps {fields : List (FieldFormat α)}
    (hfields : ∀ field ∈ fields, field.Keeps P) (hbefore : P before) {items rest : List Node}
    {ending : Ending} {position : Nat}
    (h : format.readElements source path items ending position fields rest before = .ok x) :
    P x := by
  induction fields generalizing position rest before with
  | nil =>
      cases source with
      | text =>
          obtain ⟨-, -, rfl⟩ := readElements_text_nil_eq_ok_iff.mp h
          exact hbefore
      | value =>
          obtain ⟨-, rfl⟩ := readElements_value_nil_eq_ok_iff.mp h
          exact hbefore
  | cons field fields ih =>
      obtain ⟨hkeeps, hfields⟩ := List.forall_mem_cons.mp hfields
      cases rest with
      | nil =>
          obtain ⟨-, -, rfl⟩ := readElements_cons_nil_eq_ok_iff.mp h
          exact hbefore
      | cons item rest =>
          obtain ⟨next, hnext, h⟩ := readElements_cons_cons_eq_ok_iff.mp h
          exact ih hfields (hkeeps _ _ _ _ hbefore hnext) h

/-- What holds of the blank record and is kept by every field holds of what is read. -/
theorem read_keeps (hblank : P format.blank) (hfields : ∀ field ∈ format.fields, field.Keeps P)
    {node : Node} (h : format.read source path node = .ok x) : P x := by
  cases node with
  | object start entries ending =>
      obtain ⟨-, seen, hread, -⟩ := read_object_eq_ok_iff.mp h
      exact readFields_keeps hfields hblank hread
  | array start items ending => exact readElements_keeps hfields hblank h
  | scalar scalar start stop => contradiction
  | unread error rest => contradiction

end

/-! ## objects of records -/

/-- The keys are written in the order of the fields. -/
theorem keys_writeFields_sublist (record : α) (fields : List (FieldFormat α)) :
    ((writeFields record fields).map (·.1)).Sublist (fields.map (·.name)) := by
  induction fields with
  | nil => exact List.Sublist.slnil
  | cons field fields ih =>
      cases hwrite : field.write record with
      | none =>
          rw [writeFields_cons_of_eq_none hwrite]
          exact ih.cons field.name
      | some value =>
          rw [writeFields_cons_of_eq_some hwrite]
          exact ih.cons_cons field.name

/-- A record is written without repeated keys, if its values are. -/
theorem distinctKeys_write (hnames : (format.fields.map (·.name)).Nodup)
    (h : ∀ field ∈ format.fields, ∀ value ∈ field.write record, value.DistinctKeys) :
    (format.write record).DistinctKeys := by
  refine .object (hnames.sublist (keys_writeFields_sublist record format.fields)) ?_
  intro entry hentry
  obtain ⟨field, hfield, hwrite⟩ := List.mem_filterMap.mp hentry
  obtain ⟨value, hvalue, rfl⟩ := Option.map_eq_some_iff.mp hwrite
  exact h field hfield value hvalue

end RecordFormat

end Exemplar
