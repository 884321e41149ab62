import Exemplar.Json.Basic

/-!
# Exemplar.Proofs.Json.Shape

Values of one shape.  They differ in some leaves only, which are related by a
given relation: arrays have the same number of items, and objects have the
same keys in the same order.

* `Json.SameShape` — the least such relation of values;
* `SameShapeEntries.insertEntry` — putting values of one shape under one key.
-/

namespace Exemplar

namespace Json

section

variable (R : Json → Json → Prop)

mutual

/-- The values are equal but for leaves, which are related. -/
inductive SameShape : Json → Json → Prop where
  | refl (value : Json) : SameShape value value
  | leaf {a b : Json} : R a b → SameShape a b
  | array {items items' : List Json} :
      SameShapeItems items items' → SameShape (.array items) (.array items')
  | object {entries entries' : List (String × Json)} :
      SameShapeEntries entries entries' → SameShape (.object entries) (.object entries')

/-- The items are equal one by one, but for leaves. -/
inductive SameShapeItems : List Json → List Json → Prop where
  | nil : SameShapeItems [] []
  | cons {a b : Json} {items items' : List Json} :
      SameShape a b → SameShapeItems items items' → SameShapeItems (a :: items) (b :: items')

/-- The entries have equal keys, and equal values but for leaves. -/
inductive SameShapeEntries : List (String × Json) → List (String × Json) → Prop where
  | nil : SameShapeEntries [] []
  | cons {key : String} {a b : Json} {entries entries' : List (String × Json)} :
      SameShape a b → SameShapeEntries entries entries' →
        SameShapeEntries ((key, a) :: entries) ((key, b) :: entries')

end

end

variable {R : Json → Json → Prop}

/-- Values of one shape are put under one key: both keys are new, or both take
an old entry's place. -/
theorem SameShapeEntries.insertEntry (key : String) {a b : Json} (hvalue : SameShape R a b) :
    {entries entries' : List (String × Json)} → SameShapeEntries R entries entries' →
      SameShapeEntries R (Json.insertEntry key a entries) (Json.insertEntry key b entries')
  | _, _, .nil => .cons hvalue .nil
  | (k, _) :: _, _, .cons hfirst hrest => by
      rw [Json.insertEntry, Json.insertEntry]
      by_cases hk : k = key
      · rw [if_pos hk, if_pos hk]
        exact .cons hvalue hrest
      · rw [if_neg hk, if_neg hk]
        exact .cons hfirst (hrest.insertEntry key hvalue)

/-! ## values that may be absent -/

variable {found found' : Option Json}

/-- Null in the place of absent values. -/
theorem SameShape.getD_null (h : Option.Rel (SameShape R) found found') :
    SameShape R (found.getD .null) (found'.getD .null) :=
  match h with
  | .none => .refl .null
  | .some hvalue => hvalue

/-- Lists of values that may be absent. -/
theorem SameShapeItems.toList (h : Option.Rel (SameShape R) found found') :
    SameShapeItems R found.toList found'.toList :=
  match h with
  | .none => .nil
  | .some hvalue => .cons hvalue .nil

/-- A sample has its own shape. -/
theorem rel_sameShape_refl (found : Option Json) : Option.Rel (SameShape R) found found :=
  match found with
  | none => .none
  | some value => .some (.refl value)

end Json

end Exemplar
