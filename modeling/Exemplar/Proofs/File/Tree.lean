import Exemplar.File.Tree

/-!
# Exemplar.Proofs.File.Tree

What putting something at a place does to a tree of files.  It is there
afterwards if the directory above the place is there, and nothing changes at
the places that do not lead through this one.  Directories on the way hold
something else then, so places are compared by what is at them without what a
directory holds.

* `FileTree.node?` — what is at a place;
* `FileTree.at?_put`, `FileTree.node?_put` — what is at a place afterwards.
-/

namespace Exemplar

/-- A file with its bytes, or a directory without what it holds. -/
inductive FileNode where
  | file (content : ByteArray)
  | directory

namespace FileTree

/-- The topmost node of a tree. -/
def node : FileTree → FileNode
  | file content => .file content
  | directory _ => .directory

/-- The node that names lead to. -/
def node? (tree : FileTree) (names : List String) : Option FileNode :=
  (tree.at? names).map node

/-! ## places -/

theorem at?_cons (tree : FileTree) (name : String) (rest : List String) :
    tree.at? (name :: rest) = (tree.child? name).bind (·.at? rest) := rfl

/-- A longer path goes on from where the shorter one leads. -/
theorem at?_append (tree : FileTree) (names more : List String) :
    tree.at? (names ++ more) = (tree.at? names).bind (·.at? more) :=
  List.foldlM_append

theorem node?_cons (tree : FileTree) (name : String) (rest : List String) :
    tree.node? (name :: rest) = (tree.child? name).bind (·.node? rest) := by
  rw [node?, at?_cons, Option.map_bind]
  rfl

/-- A directory is a tree with entries. -/
theorem node?_eq_directory_iff {tree : FileTree} {names : List String} :
    tree.node? names = some .directory ↔ ∃ entries, tree.at? names = some (.directory entries) := by
  rw [node?, Option.map_eq_some_iff]
  constructor
  · rintro ⟨found, hfound, hnode⟩
    cases found with
    | file content => contradiction
    | directory entries => exact ⟨entries, hfound⟩
  · rintro ⟨entries, hfound⟩
    exact ⟨_, hfound, rfl⟩

/-- Nothing is below a file, or below nothing. -/
theorem node?_append_of_ne_directory {tree : FileTree} {names more : List String}
    (h : tree.node? names ≠ some .directory) (hmore : more ≠ []) :
    tree.node? (names ++ more) = none := by
  obtain ⟨name, rest, rfl⟩ := List.exists_cons_of_ne_nil hmore
  rw [node?, at?_append]
  cases hfound : tree.at? names with
  | none => rfl
  | some found =>
      cases found with
      | file content => rfl
      | directory entries => exact absurd (node?_eq_directory_iff.mpr ⟨entries, hfound⟩) h

/-! ## entries -/

theorem child?_cons (name other : String) (tree : FileTree) (rest : List (String × FileTree)) :
    (directory ((name, tree) :: rest)).child? other =
      if name = other then some tree else (directory rest).child? other := by
  by_cases h : name = other
  · simp [child?, h]
  · simp [child?, h]

/-- A new entry is found under its name, and the others stay. -/
theorem child?_putEntry (name other : String) (new : FileTree)
    (entries : List (String × FileTree)) :
    (directory (putEntry name new entries)).child? other =
      if name = other then some new else (directory entries).child? other := by
  induction entries with
  | nil => rw [putEntry, child?_cons]
  | cons entry rest ih =>
      obtain ⟨n, t⟩ := entry
      rw [putEntry]
      by_cases hn : n = name
      · subst hn
        rw [if_pos rfl, child?_cons, child?_cons]
        split <;> rfl
      · rw [if_neg hn, child?_cons, child?_cons, ih]
        by_cases h : n = other
        · rw [if_pos h, if_pos h, if_neg fun heq => hn (h.trans heq.symm)]
        · rw [if_neg h, if_neg h]

/-- Changing what is under a name. -/
theorem child?_map (name other : String) (f : FileTree → FileTree)
    (entries : List (String × FileTree)) :
    (directory (entries.map fun (n, t) => if n = name then (n, f t) else (n, t))).child? other =
      if name = other then ((directory entries).child? other).map f
      else (directory entries).child? other := by
  induction entries with
  | nil => exact (ite_self none).symm
  | cons entry rest ih =>
      obtain ⟨n, t⟩ := entry
      rw [List.map_cons, child?_cons]
      by_cases hn : n = name
      · subst hn
        rw [if_pos rfl, child?_cons, ih]
        split <;> rfl
      · rw [if_neg hn, child?_cons, ih]
        by_cases h : n = other
        · rw [if_pos h, if_pos h, if_neg fun heq => hn (h.trans heq.symm)]
        · rw [if_neg h, if_neg h]

/-! ## putting -/

/-- Putting something below a directory reaches the entry of the next name. -/
theorem child?_put (new : FileTree) (name : String) (next : String) (rest : List String)
    (entries : List (String × FileTree)) (other : String) :
    (put new (name :: next :: rest) (directory entries)).child? other =
      if name = other then ((directory entries).child? other).map (put new (next :: rest))
      else (directory entries).child? other :=
  child?_map name other (put new (next :: rest)) entries

/-- What is put somewhere is there, if the directory above it is there. -/
theorem at?_put (new : FileTree) {tree : FileTree} {names : List String} {name : String}
    (h : tree.node? names = some .directory) :
    (put new (names ++ [name]) tree).at? (names ++ [name]) = some new := by
  induction names generalizing tree with
  | nil =>
      obtain ⟨entries, hentries⟩ := node?_eq_directory_iff.mp h
      cases hentries
      show ((directory (putEntry name new entries)).child? name).bind some = some new
      rw [child?_putEntry, if_pos rfl]
      rfl
  | cons first rest ih =>
      rw [node?_cons] at h
      obtain ⟨below, hbelow, hrest⟩ := Option.bind_eq_some_iff.mp h
      cases tree with
      | file content => contradiction
      | directory entries =>
          obtain ⟨next, more, hmore⟩ := List.exists_cons_of_ne_nil
            (List.append_ne_nil_of_right_ne_nil rest (List.cons_ne_nil name []))
          rw [List.cons_append, at?_cons, hmore, child?_put, if_pos rfl, hbelow, ← hmore]
          exact ih hrest

/-- Nothing changes at the places that do not lead through this one. -/
theorem node?_put (new tree : FileTree) {names other : List String} (h : ¬ names <+: other) :
    (put new names tree).node? other = tree.node? other := by
  induction names generalizing tree other with
  | nil => exact absurd List.nil_prefix h
  | cons name rest ih =>
      cases tree with
      | file content => rw [put]
      | directory entries =>
          cases other with
          | nil => cases rest <;> rfl
          | cons first more =>
              rw [node?_cons, node?_cons]
              cases rest with
              | nil =>
                  rw [put, child?_putEntry, if_neg]
                  rintro rfl
                  exact h (List.cons_prefix_cons.mpr ⟨rfl, List.nil_prefix⟩)
              | cons next rest =>
                  rw [child?_put]
                  split
                  · next heq =>
                      subst heq
                      have hmore : ¬ (next :: rest) <+: more := fun hprefix =>
                        h (List.cons_prefix_cons.mpr ⟨rfl, hprefix⟩)
                      cases (directory entries).child? name with
                      | none => rfl
                      | some below => exact ih below hmore
                  · rfl

end FileTree

end Exemplar
