import Exemplar.Proofs.Json.Entries
import Exemplar.Proofs.Text.Ends
import Exemplar.Proofs.TypeTerm.Grammar
import Mathlib.Logic.Relation

/-!
# Exemplar.Proofs.FieldKey

The key of a field by the names that its annotations give to the field.  One
annotation comes before the other, a name that is blank is none, and without a
name the field keeps the one that it is declared with.  So the key stays the
same whatever is changed in the annotations besides these names: their order,
other annotations and attributes, and double quotes around a name.

* `InQuotes` — names in double quotes;
* `GivesName` — what annotations say of the name of a field;
* `override?_eq_some_iff` — the name that is found is the one that is given;
* `Marker.Edit` — changes that keep all names;
* `fieldKey_precedence` — the key of a field.
-/

namespace Exemplar

/-- The annotation of Jackson that renames a field, and its attribute. -/
def jacksonProperty : String × String :=
  ("com.fasterxml.jackson.annotation.JsonProperty", "value")

/-- The annotation of Fastjson that renames a field, and its attribute. -/
def fastjsonField : String × String := ("com.alibaba.fastjson.annotation.JSONField", "name")

theorem namingAttributes_eq : namingAttributes = [jacksonProperty, fastjsonField] := rfl

/-! ## double quotes -/

/-- A text with double quotes around it. -/
def withQuotes (before after : Nat) (text : String) : String :=
  String.ofList (List.replicate before '"' ++ text.toList ++ List.replicate after '"')

/-- A text is a name in double quotes, in any number of them on each side; the
name itself neither begins nor ends with one. -/
def InQuotes (text name : String) : Prop :=
  (∃ before after, text = withQuotes before after name) ∧
    name.toList.head? ≠ some '"' ∧ name.toList.getLast? ≠ some '"'

/-- Quotes around a text are stripped, however many there are. -/
theorem stripQuotes_withQuotes (before after : Nat) (text : String) :
    stripQuotes (withQuotes before after text).toList = stripQuotes text.toList := by
  have hquotes : ∀ n, ∀ c ∈ List.replicate n '"', decide (c = '"') = true :=
    fun n c hc => decide_eq_true (List.eq_of_mem_replicate hc)
  rw [withQuotes, String.toList_ofList, stripQuotes_eq_stripEnds, stripQuotes_eq_stripEnds,
    stripEnds_append (hquotes before) (hquotes after)]

/-- A text is a name in quotes if stripping leaves the name. -/
theorem inQuotes_iff {text name : String} :
    InQuotes text name ↔ stripQuotes text.toList = name.toList := by
  have hne : ∀ side? : Option Char,
      side? ≠ some '"' ↔ ∀ c, side? = some c → decide (c = '"') = false := by
    intro side?
    refine ⟨fun hne c hc => decide_eq_false fun heq => hne (heq ▸ hc), fun hall hquote => ?_⟩
    exact of_decide_eq_false (hall _ hquote) rfl
  rw [stripQuotes_eq_stripEnds, stripEnds_eq_iff]
  refine and_congr ⟨?_, ?_⟩ (and_congr (hne _) (hne _))
  · rintro ⟨before, after, rfl⟩
    exact ⟨_, _, fun c hc => decide_eq_true (List.eq_of_mem_replicate hc),
      fun c hc => decide_eq_true (List.eq_of_mem_replicate hc), String.toList_ofList⟩
  · rintro ⟨u, v, hu, hv, htext⟩
    refine ⟨u.length, v.length, ?_⟩
    rw [withQuotes, ← List.eq_replicate_of_mem fun c hc => of_decide_eq_true (hu c hc),
      ← List.eq_replicate_of_mem fun c hc => of_decide_eq_true (hv c hc), ← htext,
      String.ofList_toList]

/-! ## names that are given -/

/-- An annotation gives a name to its field: its attribute for names holds the
name in double quotes, and the name is not blank. -/
def Marker.Gives (naming : String × String) (name : String) (a : Marker) : Prop :=
  a.name = naming.1 ∧
    ∃ text, a.attribute? naming.2 = some text ∧ InQuotes text name ∧ ¬ Blanks name.toList

/-- One of the annotations gives a name to the field. -/
def GivesName (annotations : List Marker) (naming : String × String) (name : String) : Prop :=
  ∃ a ∈ annotations, a.Gives naming name

section

variable {annotations others : List Marker} {naming : String × String} {name : String}

/-- An annotation that comes once is the one that is found. -/
theorem find?_name_eq_some_iff {n : String} (honce : annotations.countP (·.name = n) ≤ 1)
    {a : Marker} : annotations.find? (·.name = n) = some a ↔ a ∈ annotations ∧ a.name = n := by
  constructor
  · exact fun hfind => ⟨List.mem_of_find?_eq_some hfind, by simpa using List.find?_some hfind⟩
  · rintro ⟨hmem, hname⟩
    have hfound : a ∈ annotations.filter (·.name = n) :=
      List.mem_filter.mpr ⟨hmem, decide_eq_true hname⟩
    rw [List.countP_eq_length_filter] at honce
    rw [← List.head?_filter]
    match hfilter : annotations.filter (·.name = n) with
    | [] =>
        rw [hfilter] at hfound
        contradiction
    | [b] =>
        rw [hfilter, List.mem_singleton] at hfound
        rw [hfilter, hfound, List.head?_cons]
    | _ :: _ :: _ =>
        rw [hfilter] at honce
        simp at honce

/-- Where an annotation comes at most once, its attribute is found wherever it
stands. -/
theorem annotationValue?_eq_some_iff (honce : annotations.countP (·.name = naming.1) ≤ 1)
    {text : String} : annotationValue? annotations naming.1 naming.2 = some text ↔
      ∃ a ∈ annotations, a.name = naming.1 ∧ a.attribute? naming.2 = some text := by
  simp only [annotationValue?, Option.bind_eq_some_iff, find?_name_eq_some_iff honce, and_assoc]

/-- **The name that is found** is the one that an annotation gives. -/
theorem override?_eq_some_iff (honce : annotations.countP (·.name = naming.1) ≤ 1) :
    override? annotations naming = some name ↔ GivesName annotations naming name := by
  have hname : ∀ text, (if (stripQuotes text.toList).all isBlank then none
      else some (String.ofList (stripQuotes text.toList))) = some name ↔
      InQuotes text name ∧ ¬ Blanks name.toList := by
    intro text
    rw [inQuotes_iff, Blanks, ← List.all_eq_true]
    constructor
    · intro h
      split at h
      · contradiction
      · next hblank =>
          cases h
          rw [String.toList_ofList]
          exact ⟨rfl, hblank⟩
    · rintro ⟨hstrip, hblank⟩
      rw [hstrip, if_neg hblank, String.ofList_toList]
  constructor
  · intro h
    rw [override?] at h
    split at h
    · contradiction
    · next text htext =>
        obtain ⟨a, ha, haname, hattribute⟩ := (annotationValue?_eq_some_iff honce).mp htext
        exact ⟨a, ha, haname, text, hattribute, (hname text).mp h⟩
  · rintro ⟨a, ha, haname, text, hattribute, hgiven⟩
    rw [override?, (annotationValue?_eq_some_iff honce).mpr ⟨a, ha, haname, hattribute⟩]
    exact (hname text).mpr hgiven

end

/-! ## changes that keep all names -/

/-- A change of annotations that touches no name which they give to a field:
annotations in another order, one annotation more that names no fields, one
attribute more that is no name, and double quotes around the text of an
attribute. -/
inductive Marker.Edit : List Marker → List Marker → Prop where
  | reorder {annotations others : List Marker} (h : annotations.Perm others) :
      Edit annotations others
  | addMarker {a : Marker} {rest : List Marker} (h : a.name ∉ namingAttributes.map (·.1)) :
      Edit rest (a :: rest)
  | addAttribute {name key value : String} {before after : List (String × String)}
      {rest : List Marker} (h : (name, key) ∉ namingAttributes) :
      Edit (⟨name, before ++ after⟩ :: rest) (⟨name, before ++ (key, value) :: after⟩ :: rest)
  | addQuotes {name key text : String} {before after : List (String × String)}
      {rest : List Marker} (left right : Nat) :
      Edit (⟨name, before ++ (key, text) :: after⟩ :: rest)
        (⟨name, before ++ (key, withQuotes left right text) :: after⟩ :: rest)

section

variable {annotations others : List Marker} {naming : String × String} {name : String}

/-- More quotes do not change the name. -/
theorem inQuotes_withQuotes_iff (left right : Nat) {text : String} :
    InQuotes (withQuotes left right text) name ↔ InQuotes text name := by
  rw [inQuotes_iff, inQuotes_iff, stripQuotes_withQuotes]

theorem givesName_cons_iff {a : Marker} :
    GivesName (a :: annotations) naming name ↔
      a.Gives naming name ∨ GivesName annotations naming name := by
  rw [GivesName, GivesName, List.exists_mem_cons_iff]

/-- One change keeps the names that are given. -/
theorem givesName_iff_of_edit (h : Marker.Edit annotations others)
    (hnaming : naming ∈ namingAttributes) :
    GivesName annotations naming name ↔ GivesName others naming name := by
  cases h with
  | reorder hperm =>
      exact exists_congr fun a => and_congr_left fun _ => hperm.mem_iff
  | addMarker hother =>
      rw [givesName_cons_iff, or_iff_right]
      exact fun hgives => hother (hgives.1 ▸ List.mem_map_of_mem hnaming)
  | @addAttribute n key value before after rest hother =>
      rw [givesName_cons_iff, givesName_cons_iff]
      refine or_congr_left' fun _ => and_congr_right fun hname => ?_
      have hkey : key ≠ naming.2 := fun heq =>
        hother ((Prod.ext hname heq : (n, key) = naming) ▸ hnaming)
      rw [Marker.attribute?, Marker.attribute?, Json.entry?_append, Json.entry?_append,
        Json.entry?_cons, if_neg hkey]
  | @addQuotes n key text before after rest left right =>
      rw [givesName_cons_iff, givesName_cons_iff]
      refine or_congr_left' fun _ => and_congr_right fun _ => ?_
      simp only [Marker.attribute?, Json.entry?_append, Json.entry?_cons]
      cases Json.entry? before naming.2 with
      | some found => rfl
      | none =>
          by_cases hkey : key = naming.2
          · simp [hkey, inQuotes_withQuotes_iff]
          · simp only [if_neg hkey]

/-- One change keeps how often an annotation comes that names fields. -/
theorem countP_eq_of_edit (h : Marker.Edit annotations others)
    (hnaming : naming ∈ namingAttributes) :
    annotations.countP (·.name = naming.1) = others.countP (·.name = naming.1) := by
  cases h with
  | reorder hperm => exact hperm.countP_eq _
  | addMarker hother =>
      rw [List.countP_cons_of_neg]
      exact fun heq => hother (of_decide_eq_true heq ▸ List.mem_map_of_mem hnaming)
  | addAttribute | addQuotes => simp only [List.countP_cons]

/-- Changes one after the other, made or undone, keep both. -/
theorem same_names_of_edits (h : Relation.EqvGen Marker.Edit annotations others)
    (hnaming : naming ∈ namingAttributes) :
    (∀ name, GivesName annotations naming name ↔ GivesName others naming name) ∧
      annotations.countP (·.name = naming.1) = others.countP (·.name = naming.1) := by
  induction h with
  | rel _ _ hedit =>
      exact ⟨fun name => givesName_iff_of_edit hedit hnaming, countP_eq_of_edit hedit hnaming⟩
  | refl => exact ⟨fun _ => Iff.rfl, rfl⟩
  | symm _ _ _ ih => exact ⟨fun name => (ih.1 name).symm, ih.2.symm⟩
  | trans _ _ _ _ _ ih ih' =>
      exact ⟨fun name => (ih.1 name).trans (ih'.1 name), ih.2.trans ih'.2⟩

end

/-! ## keys -/

section

variable {annotations : List Marker} (declared : String)
  (honce : ∀ naming ∈ namingAttributes, annotations.countP (·.name = naming.1) ≤ 1)

/-- The Jackson name comes first, then the Fastjson name, then the declared one. -/
theorem fieldKey_eq (annotations : List Marker) (declared : String) :
    fieldKey annotations declared =
      ((override? annotations jacksonProperty).or
        (override? annotations fastjsonField)).getD declared := by
  rw [fieldKey, namingAttributes_eq, List.findSome?_cons, List.findSome?_cons]
  cases override? annotations jacksonProperty <;> cases override? annotations fastjsonField <;> rfl

include honce

/-- The same order of names by what annotations say. -/
theorem fieldKey_eq_iff {key : String} : fieldKey annotations declared = key ↔
    GivesName annotations jacksonProperty key ∨
      (∀ name, ¬ GivesName annotations jacksonProperty name) ∧
        (GivesName annotations fastjsonField key ∨
          (∀ name, ¬ GivesName annotations fastjsonField name) ∧ declared = key) := by
  have hjackson := fun name => @override?_eq_some_iff _ _ name
    (honce jacksonProperty List.mem_cons_self)
  have hfastjson := fun name => @override?_eq_some_iff _ _ name
    (honce fastjsonField (List.mem_cons_of_mem _ List.mem_cons_self))
  simp only [← hjackson, ← hfastjson, ← Option.eq_none_iff_forall_ne_some]
  rw [fieldKey_eq]
  cases override? annotations jacksonProperty with
  | some name => simp
  | none =>
      cases override? annotations fastjsonField with
      | some name => simp
      | none => simp

/-- **The key of a field** is the name that the annotation of Jackson gives, or
else the one that the annotation of Fastjson gives, or else the declared name;
a name is given without the double quotes around it, and only if it is not
blank.  Another order of the annotations, other annotations and attributes, and
more or fewer double quotes make no difference, and the key is blank only if
the declared name is. -/
theorem fieldKey_precedence :
    (∀ key, fieldKey annotations declared = key ↔
      GivesName annotations jacksonProperty key ∨
        (∀ name, ¬ GivesName annotations jacksonProperty name) ∧
          (GivesName annotations fastjsonField key ∨
            (∀ name, ¬ GivesName annotations fastjsonField name) ∧ declared = key)) ∧
    (∀ others, Relation.EqvGen Marker.Edit annotations others →
      fieldKey others declared = fieldKey annotations declared) ∧
    (Blanks (fieldKey annotations declared).toList → Blanks declared.toList) := by
  refine ⟨fun key => fieldKey_eq_iff declared honce, fun others hedits => ?_, fun hblank => ?_⟩
  · have honce' : ∀ naming ∈ namingAttributes, others.countP (·.name = naming.1) ≤ 1 :=
      fun naming hnaming => (same_names_of_edits hedits hnaming).2 ▸ honce naming hnaming
    have hjackson := (same_names_of_edits hedits (by decide : jacksonProperty ∈ _)).1
    have hfastjson := (same_names_of_edits hedits (by decide : fastjsonField ∈ _)).1
    have hkey := (fieldKey_eq_iff declared honce).mp rfl
    rw [fieldKey_eq_iff declared honce']
    simpa only [hjackson, hfastjson] using hkey
  · obtain ⟨_, _, _, _, _, _, hnot⟩ | ⟨_, ⟨_, _, _, _, _, _, hnot⟩ | ⟨_, hdeclared⟩⟩ :=
      (fieldKey_eq_iff declared honce).mp rfl
    · exact absurd hblank hnot
    · exact absurd hblank hnot
    · rwa [hdeclared]

end

/-! ### a blank name before another -/

/-- A name of Fastjson with a double quote inside, and a blank one of Jackson. -/
def blankNaming : List Marker :=
  [⟨"com.alibaba.fastjson.annotation.JSONField", [("ordinal", "1"), ("name", "\"\"fj\"name\"")]⟩,
    ⟨"com.fasterxml.jackson.annotation.JsonProperty", [("value", "\"\u3000\"")]⟩]

/-- The same names in another order, with more quotes, and with one more annotation. -/
def blankNamingEdited : List Marker :=
  [⟨"javax.annotation.Nullable", [("value", "x")]⟩,
    ⟨"com.fasterxml.jackson.annotation.JsonProperty",
      [("value", withQuotes 2 1 "\"\u3000\"")]⟩,
    ⟨"com.alibaba.fastjson.annotation.JSONField", [("ordinal", "1"), ("name", "\"\"fj\"name\"")]⟩]

theorem edits_blankNaming : Relation.EqvGen Marker.Edit blankNaming blankNamingEdited := by
  have hquoted := @Marker.Edit.addQuotes "com.fasterxml.jackson.annotation.JsonProperty" "value"
    "\"\u3000\"" [] [] [⟨"com.alibaba.fastjson.annotation.JSONField",
      [("ordinal", "1"), ("name", "\"\"fj\"name\"")]⟩] 2 1
  refine .trans _ _ _ (.rel _ _ (.reorder (List.Perm.swap _ _ _))) ?_
  exact .trans _ _ _ (.rel _ _ hquoted) (.rel _ _ (.addMarker (by decide)))

/-- The blank name does not count, before and after the changes; without the
other name a blank declared name is left. -/
theorem fieldKey_blankNaming :
    (∀ naming ∈ namingAttributes, blankNaming.countP (·.name = naming.1) ≤ 1) ∧
    Relation.EqvGen Marker.Edit blankNaming blankNamingEdited ∧
    fieldKey blankNaming "userName" = "fj\"name" ∧
    fieldKey blankNamingEdited "userName" = "fj\"name" ∧
    Blanks (fieldKey (blankNaming.drop 1) " ").toList ∧ Blanks " ".toList := by
  have honce : ∀ naming ∈ namingAttributes, blankNaming.countP (·.name = naming.1) ≤ 1 := by decide
  have hfirst : ∀ name, ¬ GivesName blankNaming jacksonProperty name := by
    intro name hgives
    rw [← override?_eq_some_iff (honce jacksonProperty (by decide))] at hgives
    have hnone : override? blankNaming jacksonProperty = none := by decide +kernel
    rw [hnone] at hgives
    contradiction
  have hsecond : GivesName blankNaming fastjsonField "fj\"name" := by
    refine ⟨_, List.mem_cons_self, rfl, "\"\"fj\"name\"", rfl, ?_, ?_⟩
    · exact ⟨⟨2, 1, by decide +kernel⟩, by decide +kernel, by decide +kernel⟩
    · exact fun hblank => absurd (hblank 'f' (by decide +kernel)) (by decide +kernel)
  obtain ⟨hkey, hedits, _⟩ := fieldKey_precedence "userName" honce
  have hname := (hkey "fj\"name").mpr (.inr ⟨hfirst, .inl hsecond⟩)
  have hblank : Blanks (fieldKey (blankNaming.drop 1) " ").toList := by decide +kernel
  refine ⟨honce, edits_blankNaming, hname, (hedits _ edits_blankNaming).trans hname, hblank, ?_⟩
  exact (@fieldKey_precedence (blankNaming.drop 1) " " (by decide)).2.2 hblank

end Exemplar
