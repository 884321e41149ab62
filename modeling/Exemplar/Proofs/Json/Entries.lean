import Exemplar.Json.Basic

/-!
# Exemplar.Proofs.Json.Entries

Lists of entries.  Putting an entry under a new key adds it at the end, and
under a key that is present it takes the old entry's place; so keys that are
different from each other stay different.

* `entry?_insertEntry` — what stands under a key after putting an entry;
* `insertEntry_of_not_mem` — a new key comes last;
* `nodup_insertEntry` — keys stay different;
* `putEntries` — entries that are put one after the other;
* `putEntries_of_nodup` — if their keys are different, they are a list again;
* `map_fst_putEntries` — each key stands where it came first;
* `entry?_putEntries` — and holds what came last;
* `forall_mem_of_putEntries` — what holds of the entries that are left and of
  those that a later one replaces holds of all.
-/

namespace Exemplar

namespace Json

section

variable {α : Type} {key : String} {value : α} {entries : List (String × α)}

/-- A new key comes last. -/
theorem insertEntry_of_not_mem (h : key ∉ entries.map (·.1)) :
    insertEntry key value entries = entries ++ [(key, value)] := by
  induction entries with
  | nil => rfl
  | cons entry rest ih =>
      rw [List.map_cons, List.mem_cons, not_or] at h
      rw [insertEntry, if_neg (Ne.symm h.1), ih h.2]
      rfl

/-- A key that is present keeps its place. -/
theorem map_fst_insertEntry_of_mem (h : key ∈ entries.map (·.1)) :
    (insertEntry key value entries).map (·.1) = entries.map (·.1) := by
  induction entries with
  | nil => contradiction
  | cons entry rest ih =>
      rw [insertEntry]
      by_cases hk : entry.1 = key
      · rw [if_pos hk, List.map_cons, List.map_cons, hk]
      · have hrest : key ∈ rest.map (·.1) := (List.mem_cons.mp h).resolve_left (Ne.symm hk)
        rw [if_neg hk, List.map_cons, List.map_cons, ih hrest]

/-- After putting an entry, every entry is the new one or was there. -/
theorem mem_insertEntry {entry : String × α} (h : entry ∈ insertEntry key value entries) :
    entry = (key, value) ∨ entry ∈ entries := by
  induction entries with
  | nil => exact .inl (List.mem_singleton.mp h)
  | cons first rest ih =>
      rw [insertEntry] at h
      split at h
      · obtain rfl | h := List.mem_cons.mp h
        · exact .inl rfl
        · exact .inr (List.mem_cons_of_mem _ h)
      · obtain rfl | h := List.mem_cons.mp h
        · exact .inr List.mem_cons_self
        · exact (ih h).imp_right (List.mem_cons_of_mem _)

theorem mem_insertEntry_self (key : String) (value : α) (entries : List (String × α)) :
    (key, value) ∈ insertEntry key value entries := by
  induction entries with
  | nil => exact List.mem_singleton_self _
  | cons entry rest ih =>
      rw [insertEntry]
      split
      · exact List.mem_cons_self
      · exact List.mem_cons_of_mem _ ih

/-- An entry stays when another key is put. -/
theorem mem_insertEntry_of_ne {entry : String × α} (h : entry ∈ entries) (hne : entry.1 ≠ key) :
    entry ∈ insertEntry key value entries := by
  induction entries with
  | nil => contradiction
  | cons first rest ih =>
      rw [insertEntry]
      obtain rfl | h := List.mem_cons.mp h
      · rw [if_neg hne]
        exact List.mem_cons_self
      · split
        · exact List.mem_cons_of_mem _ h
        · exact List.mem_cons_of_mem _ (ih h)

/-- Changing all values goes through to the entry that is put. -/
theorem insertEntry_map {β : Type} (f : α → β) (key : String) (value : α)
    (entries : List (String × α)) :
    (insertEntry key value entries).map (fun entry => (entry.1, f entry.2)) =
      insertEntry key (f value) (entries.map fun entry => (entry.1, f entry.2)) := by
  induction entries with
  | nil => rfl
  | cons entry rest ih =>
      rw [insertEntry, List.map_cons, insertEntry]
      by_cases hk : entry.1 = key
      · rw [if_pos hk, if_pos hk, List.map_cons]
      · rw [if_neg hk, if_neg hk, List.map_cons, ih]

theorem entry?_cons (k : String) (value : α) (rest : List (String × α)) (key : String) :
    entry? ((k, value) :: rest) key = if k = key then some value else entry? rest key := by
  unfold entry?
  by_cases h : k = key <;> simp [h]

/-- The first of two lists with the key says what stands under it. -/
theorem entry?_append (entries more : List (String × α)) (key : String) :
    entry? (entries ++ more) key =
      match entry? entries key with
      | some value => some value
      | none => entry? more key := by
  unfold entry?
  rw [List.find?_append, Option.map_or]
  cases (entries.find? fun entry => entry.1 = key).map (·.2) <;> rfl

/-- What stands under a key after putting an entry. -/
theorem entry?_insertEntry (entries : List (String × α)) (key other : String) (value : α) :
    entry? (insertEntry key value entries) other =
      if key = other then some value else entry? entries other := by
  induction entries with
  | nil => by_cases h : key = other <;> simp [insertEntry, entry?, h]
  | cons entry rest ih =>
      unfold entry? at ih ⊢
      rw [insertEntry]
      by_cases hk : entry.1 = key
      · rw [if_pos hk]
        by_cases h : key = other <;> simp [hk, h]
      · rw [if_neg hk]
        by_cases h : entry.1 = other
        · have hne : ¬ key = other := fun heq => hk (h.trans heq.symm)
          simp [h, hne]
        · simp [h, ih]

/-- Putting what stands there changes nothing. -/
theorem insertEntry_of_entry? (h : entry? entries key = some value) :
    insertEntry key value entries = entries := by
  induction entries with
  | nil => contradiction
  | cons entry rest ih =>
      rw [insertEntry]
      by_cases hk : entry.1 = key
      · have hvalue : some entry.2 = some value := by simpa [hk, entry?] using h
        rw [if_pos hk, ← hk, ← Option.some.inj hvalue]
      · have hrest : entry? rest key = some value := by simpa [hk, entry?] using h
        rw [if_neg hk, ih hrest]

/-- The later of two values under a key counts. -/
theorem insertEntry_insertEntry (key : String) (value value' : α) (entries : List (String × α)) :
    insertEntry key value' (insertEntry key value entries) = insertEntry key value' entries := by
  induction entries with
  | nil => simp [insertEntry]
  | cons entry rest ih =>
      rw [insertEntry, insertEntry]
      split
      · rw [insertEntry, if_pos rfl]
      · next hk => rw [insertEntry, if_neg hk, ih]

/-- Different keys stay different. -/
theorem nodup_insertEntry (h : (entries.map (·.1)).Nodup) :
    ((insertEntry key value entries).map (·.1)).Nodup := by
  induction entries with
  | nil => simp [insertEntry]
  | cons entry rest ih =>
      rw [List.map_cons, List.nodup_cons] at h
      rw [insertEntry]
      split
      · next hk =>
          rw [List.map_cons, List.nodup_cons, ← hk]
          exact h
      · next hk =>
          rw [List.map_cons, List.nodup_cons]
          refine ⟨fun hmem => ?_, ih h.2⟩
          obtain ⟨found, hfound, heq⟩ := List.mem_map.mp hmem
          obtain rfl | hfound := mem_insertEntry hfound
          · exact hk heq.symm
          · exact h.1 (heq ▸ List.mem_map_of_mem hfound)

theorem not_mem_of_nodup_append {keys : List String}
    (h : (entries.map (·.1) ++ key :: keys).Nodup) : key ∉ entries.map (·.1) :=
  fun hmem => (List.nodup_append.mp h).2.2 _ hmem _ List.mem_cons_self rfl

/-- A new key is used up, and the other new keys stay new. -/
theorem nodup_insertEntry_append {keys : List String}
    (h : (entries.map (·.1) ++ key :: keys).Nodup) (value : α) :
    ((insertEntry key value entries).map (·.1) ++ keys).Nodup := by
  rw [insertEntry_of_not_mem (not_mem_of_nodup_append h), List.map_append, List.append_assoc]
  exact h

end

/-! ## putting entries one after the other -/

section

variable {α β : Type} {done entries : List (String × α)} {entry : String × α}

/-- The entries, with new ones put one after the other. -/
def putEntries (done new : List (String × α)) : List (String × α) :=
  new.foldl (fun done entry => insertEntry entry.1 entry.2 done) done

/-- Entries with different keys are put one behind the other. -/
theorem putEntries_append_of_nodup (h : ((done ++ entries).map (·.1)).Nodup) :
    putEntries done entries = done ++ entries := by
  induction entries generalizing done with
  | nil => exact (List.append_nil done).symm
  | cons entry rest ih =>
      have hnew : entry.1 ∉ done.map (·.1) := by
        rw [List.map_append, List.map_cons] at h
        exact not_mem_of_nodup_append h
      have hmove : done ++ entry :: rest = (done ++ [entry]) ++ rest := by simp
      rw [putEntries, List.foldl_cons, insertEntry_of_not_mem hnew, hmove]
      exact ih (hmove ▸ h)

/-- Entries with different keys, put one after the other, are a list again. -/
theorem putEntries_of_nodup (h : (entries.map (·.1)).Nodup) : putEntries [] entries = entries :=
  putEntries_append_of_nodup h

/-- Putting entries repeats no key. -/
theorem nodup_putEntries_of_nodup (h : (done.map (·.1)).Nodup) (entries : List (String × α)) :
    ((putEntries done entries).map (·.1)).Nodup := by
  induction entries generalizing done with
  | nil => exact h
  | cons entry rest ih => exact ih (nodup_insertEntry h)

/-- The keys are different in the end. -/
theorem nodup_putEntries (entries : List (String × α)) :
    ((putEntries [] entries).map (·.1)).Nodup := by
  refine nodup_putEntries_of_nodup ?_ entries
  exact List.nodup_nil

/-- Putting entries once more changes nothing. -/
theorem putEntries_putEntries (entries : List (String × α)) :
    putEntries [] (putEntries [] entries) = putEntries [] entries :=
  putEntries_of_nodup (nodup_putEntries entries)

/-- The keys that are new come behind the old ones, in their own order and each
once. -/
theorem map_fst_putEntries_append (done entries : List (String × α)) :
    (putEntries done entries).map (·.1) = done.map (·.1) ++
      ((entries.map (·.1)).filter (· ∉ done.map (·.1))).eraseDups := by
  induction entries generalizing done with
  | nil => simp [putEntries]
  | cons entry rest ih =>
      have hput : (putEntries done (entry :: rest)).map (·.1) =
          (putEntries (insertEntry entry.1 entry.2 done) rest).map (·.1) := rfl
      rw [hput, ih, List.map_cons]
      by_cases hmem : entry.1 ∈ done.map (·.1)
      · rw [map_fst_insertEntry_of_mem hmem, List.filter_cons_of_neg (by simpa using hmem)]
      · rw [insertEntry_of_not_mem hmem, List.filter_cons_of_pos (by simpa using hmem),
          List.eraseDups_cons, List.filter_filter, List.map_append, List.map_singleton,
          List.append_assoc, List.singleton_append]
        congr 3
        refine List.filter_congr fun key _ => Bool.eq_iff_iff.mpr ?_
        simp [or_comm]

/-- Each key stands where it came first. -/
theorem map_fst_putEntries (entries : List (String × α)) :
    (putEntries [] entries).map (·.1) = (entries.map (·.1)).eraseDups := by
  rw [map_fst_putEntries_append, List.map_nil, List.nil_append,
    List.filter_eq_self.mpr fun _ _ => decide_eq_true List.not_mem_nil]

/-- A key holds what came last under it. -/
theorem entry?_putEntries (done entries : List (String × α)) (key : String) :
    entry? (putEntries done entries) key =
      (Json.entry? entries.reverse key).or (Json.entry? done key) := by
  induction entries generalizing done with
  | nil => rfl
  | cons entry rest ih =>
      have hput : entry? (putEntries done (entry :: rest)) key =
          entry? (putEntries (insertEntry entry.1 entry.2 done) rest) key := rfl
      have hlast : entry? (entry :: rest).reverse key =
          (Json.entry? rest.reverse key).or (Json.entry? [entry] key) := by
        simp only [Json.entry?, List.reverse_cons, List.find?_append, Option.map_or]
      rw [hput, ih, hlast, entry?_insertEntry, Option.or_assoc]
      congr 1
      by_cases hkey : entry.1 = key <;> simp [Json.entry?, hkey]

/-- Every entry was there or has been put. -/
theorem mem_of_mem_putEntries (h : entry ∈ putEntries done entries) :
    entry ∈ done ∨ entry ∈ entries := by
  induction entries generalizing done with
  | nil => exact .inl h
  | cons first rest ih =>
      obtain h | h := ih h
      · obtain rfl | h := mem_insertEntry h
        · exact .inr List.mem_cons_self
        · exact .inl h
      · exact .inr (List.mem_cons_of_mem _ h)

/-- An entry stays when other keys are put. -/
theorem mem_putEntries_of_not_mem (h : entry ∈ done) (hkey : entry.1 ∉ entries.map (·.1)) :
    entry ∈ putEntries done entries := by
  induction entries generalizing done with
  | nil => exact h
  | cons first rest ih =>
      rw [List.map_cons, List.mem_cons, not_or] at hkey
      exact ih (mem_insertEntry_of_ne h hkey.1) hkey.2

theorem putEntries_map (f : α → β) (done entries : List (String × α)) :
    putEntries (done.map fun entry => (entry.1, f entry.2))
        (entries.map fun entry => (entry.1, f entry.2)) =
      (putEntries done entries).map fun entry => (entry.1, f entry.2) := by
  induction entries generalizing done with
  | nil => rfl
  | cons entry rest ih =>
      have hput := insertEntry_map f entry.1 entry.2 done
      have hrest := ih (insertEntry entry.1 entry.2 done)
      rw [hput] at hrest
      exact hrest

/-- What holds of the entries that are left in the end, and of every entry that
a later one with the same key replaces, holds of all entries. -/
theorem forall_mem_of_putEntries {P : α → Prop}
    (hreplaced : entries.Pairwise fun entry later => entry.1 = later.1 → P entry.2)
    (hleft : ∀ entry ∈ putEntries done entries, P entry.2) : ∀ entry ∈ entries, P entry.2 := by
  induction entries generalizing done with
  | nil => exact fun _ h => absurd h List.not_mem_nil
  | cons first rest ih =>
      obtain ⟨hfirst, hreplaced⟩ := List.pairwise_cons.mp hreplaced
      refine List.forall_mem_cons.mpr ⟨?_, ih hreplaced hleft⟩
      by_cases hkey : first.1 ∈ rest.map (·.1)
      · obtain ⟨later, hlater, heq⟩ := List.mem_map.mp hkey
        exact hfirst later hlater heq.symm
      · have hput : first ∈ putEntries (insertEntry first.1 first.2 done) rest :=
          mem_putEntries_of_not_mem (mem_insertEntry_self first.1 first.2 done) hkey
        exact hleft first hput

end

end Json

end Exemplar
