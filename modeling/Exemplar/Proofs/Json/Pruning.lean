import Exemplar.Proofs.Json.Entries

/-!
# Exemplar.Proofs.Json.Pruning

Values with parts cut off.  Null stands in the place of any value that is cut
off, a list loses its item, and an object loses entries; what is left keeps
its order.

* `Json.Pruning` — a value is another one with parts cut off;
* `Pruning.refl` — with nothing cut off, too;
* `PruningEntries.keys_sublist` — the keys that are left are a subsequence.
-/

namespace Exemplar

namespace Json

mutual

/-- The first value is the second one with parts cut off. -/
inductive Pruning : Json → Json → Prop where
  | null (b : Json) : Pruning .null b
  | bool (value : Bool) : Pruning (.bool value) (.bool value)
  | number (value : Number) : Pruning (.number value) (.number value)
  | string (value : String) : Pruning (.string value) (.string value)
  | array (items : List Json) : Pruning (.array items) (.array items)
  | empty (items : List Json) : Pruning (.array []) (.array items)
  | item {a b : Json} : Pruning a b → Pruning (.array [a]) (.array [b])
  | object {entries entries' : List (String × Json)} :
      PruningEntries entries entries' → Pruning (.object entries) (.object entries')

/-- The first entries are some of the second ones, in order, with parts of
their values cut off. -/
inductive PruningEntries : List (String × Json) → List (String × Json) → Prop where
  | nil : PruningEntries [] []
  | keep {key : String} {a b : Json} {entries entries' : List (String × Json)} :
      Pruning a b → PruningEntries entries entries' →
        PruningEntries ((key, a) :: entries) ((key, b) :: entries')
  | drop {key : String} {b : Json} {entries entries' : List (String × Json)} :
      PruningEntries entries entries' → PruningEntries entries ((key, b) :: entries')

end

/-- No value is any value with parts cut off. -/
def PruningOption (a b : Option Json) : Prop := ∀ x ∈ a, ∃ y ∈ b, Pruning x y

mutual

/-- A value is pruned to itself when nothing is cut. -/
theorem Pruning.refl : (value : Json) → Pruning value value
  | .null => .null .null
  | .bool value => .bool value
  | .number value => .number value
  | .string value => .string value
  | .array items => .array items
  | .object entries => .object (PruningEntries.refl entries)

theorem PruningEntries.refl : (entries : List (String × Json)) → PruningEntries entries entries
  | [] => .nil
  | (_, value) :: rest => .keep (Pruning.refl value) (PruningEntries.refl rest)

end

theorem PruningOption.refl (found : Option Json) : PruningOption found found :=
  fun value h => ⟨value, h, Pruning.refl value⟩

/-! ## entries -/

section

variable {entries entries' : List (String × Json)}

/-- The keys that are left are a subsequence. -/
theorem PruningEntries.keys_sublist : {entries entries' : List (String × Json)} →
    PruningEntries entries entries' → (entries.map (·.1)).Sublist (entries'.map (·.1))
  | _, _, .nil => List.Sublist.slnil
  | _, _, .keep _ h => h.keys_sublist.cons_cons _
  | _, _, .drop h => h.keys_sublist.cons _

/-- Pruning goes on behind entries that are pruned. -/
theorem PruningEntries.append : {entries entries' : List (String × Json)} →
    PruningEntries entries entries' → {more more' : List (String × Json)} →
    PruningEntries more more' → PruningEntries (entries ++ more) (entries' ++ more')
  | _, _, .nil, _, _, hmore => hmore
  | _, _, .keep hvalue h, _, _, hmore => .keep hvalue (h.append hmore)
  | _, _, .drop h, _, _, hmore => .drop (h.append hmore)

/-- An entry under a new key is put on both sides. -/
theorem PruningEntries.insertEntry (h : PruningEntries entries entries') {key : String}
    (hkey : key ∉ entries'.map (·.1)) {a b : Json} (hvalue : Pruning a b) :
    PruningEntries (Json.insertEntry key a entries) (Json.insertEntry key b entries') := by
  have hkey' : key ∉ entries.map (·.1) := fun hmem => hkey (h.keys_sublist.subset hmem)
  rw [insertEntry_of_not_mem hkey, insertEntry_of_not_mem hkey']
  exact h.append (.keep hvalue .nil)

/-- An entry under a new key is put on the second side only. -/
theorem PruningEntries.insertEntry_right (h : PruningEntries entries entries') {key : String}
    (hkey : key ∉ entries'.map (·.1)) (b : Json) :
    PruningEntries entries (Json.insertEntry key b entries') := by
  have happend : PruningEntries (entries ++ []) (entries' ++ [(key, b)]) := h.append (.drop .nil)
  rw [List.append_nil] at happend
  rw [insertEntry_of_not_mem hkey]
  exact happend

end

end Json

end Exemplar
