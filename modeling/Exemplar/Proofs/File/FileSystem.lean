import Exemplar.File.FileSystem
import Exemplar.Proofs.Except
import Exemplar.Proofs.File.Tree
import Exemplar.Proofs.State

/-!
# Exemplar.Proofs.File.FileSystem

What the operations on a file system change.  Making a directory changes no
file, since it is made where nothing was.  Writing changes the one file that
the path leads to afterwards, and gives it the text; directories that the path
runs through are still there, so the path is followed to the new file.

* `FileSystem.fileAt?`, `SameFiles`, `SameFilesBut` — the files, by place;
* `Within` — everything that is there stays there;
* `sameFiles_of_makeDirectory`, `exists_written_of_write` — the operations;
* `moves_ensureDirectories` — making all directories on a path.
-/

namespace Exemplar

/-! ## paths -/

/-- The last part is empty when the text ends in a separator. -/
theorem getLast?_splitAtChar {separator : Char} {s : List Char}
    (h : (splitAtChar separator s).getLast? = some []) :
    s = [] ∨ s.getLast? = some separator := by
  induction s with
  | nil => exact .inl rfl
  | cons c rest ih =>
      right
      rw [List.getLast?_cons]
      obtain ⟨part, more, hparts⟩ :=
        List.exists_cons_of_ne_nil (splitAtChar_ne_nil separator rest)
      by_cases hc : c = separator
      · rw [splitAtChar, if_pos hc, List.getLast?_cons, hparts, List.getLast?_cons] at h
        rw [hparts, List.getLast?_cons] at ih
        obtain rfl | hrest := ih h
        · exact congrArg some hc
        · rw [hrest]
          rfl
      · rw [splitAtChar, if_neg hc, hparts] at h
        cases more with
        | nil => exact absurd (Option.some.inj h) (List.cons_ne_nil c part)
        | cons next more =>
            obtain rfl | hrest := ih (hparts ▸ h)
            · have hone : [[]] = part :: next :: more := hparts
              exact absurd (List.cons.inj hone).2 (List.cons_ne_nil next more).symm
            · rw [hrest]
              rfl

/-- The last part is empty only after a slash. -/
theorem getLast?_pathParts {path : String} (hpath : path ≠ "") (hslash : ¬ path.endsWith "/") :
    (pathParts path).getLast? ≠ some "" := by
  intro h
  rw [pathParts, List.getLast?_map, Option.map_eq_some_iff] at h
  obtain ⟨part, hpart, hempty⟩ := h
  rw [String.ofList_eq_empty_iff.mp hempty] at hpart
  obtain hnil | hlast := getLast?_splitAtChar hpart
  · exact hpath (String.toList_eq_nil_iff.mp hnil)
  · refine hslash ?_
    rw [String.endsWith_eq_endsWith_toSlice, String.Slice.endsWith_string_iff,
      String.copy_toSlice]
    obtain ⟨before, hbefore⟩ := List.getLast?_eq_some_iff.mp hlast
    exact ⟨before, hbefore.symm⟩

namespace FileSystem

/-! ## files by place -/

/-- The node at a place, which is given by its names, the last one first. -/
def node? (system : FileSystem) (place : List String) : Option FileNode :=
  system.root.node? place.reverse

/-- The bytes of the file at a place, if a file is there. -/
def fileAt? (system : FileSystem) (place : List String) : Option ByteArray :=
  match system.node? place with
  | some (.file content) => some content
  | _ => none

/-- No file differs. -/
def SameFiles (system system' : FileSystem) : Prop :=
  ∀ place, system'.fileAt? place = system.fileAt? place

/-- No file differs but for the one at a place. -/
def SameFilesBut (changed : List String) (system system' : FileSystem) : Prop :=
  ∀ place, place ≠ changed → system'.fileAt? place = system.fileAt? place

instance : Std.Refl SameFiles := ⟨fun _ _ => rfl⟩

instance : IsTrans FileSystem SameFiles :=
  ⟨fun _ _ _ h h' place => (h' place).trans (h place)⟩

section

variable {system system' : FileSystem} {place other : List String}

/-- Steps that change no file can come before. -/
theorem SameFilesBut.of_sameFiles {before : FileSystem} (h : SameFiles before system)
    (h' : SameFilesBut place system system') : SameFilesBut place before system' :=
  fun other hother => (h' other hother).trans (h other)

theorem fileAt?_congr (h : system'.node? place = system.node? place) :
    system'.fileAt? place = system.fileAt? place := by
  rw [fileAt?, fileAt?, h]

/-- A directory is a tree with entries. -/
theorem node?_eq_directory_iff : system.node? place = some .directory ↔
    ∃ entries, system.root.at? place.reverse = some (.directory entries) :=
  FileTree.node?_eq_directory_iff

/-- Nothing is below a place that is not a directory. -/
theorem node?_of_suffix (h : system.node? place ≠ some .directory) (hsuffix : place <:+ other)
    (hne : other ≠ place) : system.node? other = none := by
  obtain ⟨more, rfl⟩ := hsuffix
  rw [node?, List.reverse_append]
  refine FileTree.node?_append_of_ne_directory h fun hmore => hne ?_
  rw [List.reverse_eq_nil_iff.mp hmore, List.nil_append]

/-! ## putting -/

variable {tree : FileTree} {name : String}

/-- Under a directory, the new tree is where it was put. -/
theorem at?_put_self (hparent : system.node? place = some .directory) :
    (system.put tree (name :: place)).root.at? (name :: place).reverse = some tree := by
  rw [put, List.reverse_cons]
  exact FileTree.at?_put tree hparent

/-- So its node is what stands there. -/
theorem node?_put_self (hparent : system.node? place = some .directory) :
    (system.put tree (name :: place)).node? (name :: place) = some tree.node := by
  rw [node?, FileTree.node?, at?_put_self hparent]
  rfl

/-- Elsewhere nothing changes. -/
theorem node?_put (h : ¬ place <:+ other) :
    (system.put tree place).node? other = system.node? other :=
  FileTree.node?_put tree system.root fun hprefix => h (List.reverse_prefix.mp hprefix)

/-- Nothing is below a tree that holds nothing. -/
theorem node?_put_below (hparent : system.node? place = some .directory)
    (hleaf : ∀ n, tree.child? n = none) (hsuffix : (name :: place) <:+ other)
    (hne : other ≠ name :: place) : (system.put tree (name :: place)).node? other = none := by
  obtain ⟨more, rfl⟩ := hsuffix
  have hmore : more.reverse ≠ [] := fun hmore => hne (by
    rw [List.reverse_eq_nil_iff.mp hmore, List.nil_append])
  obtain ⟨first, rest, hfirst⟩ := List.exists_cons_of_ne_nil hmore
  rw [node?, put, List.reverse_append, List.reverse_cons, hfirst, FileTree.node?,
    FileTree.at?_append, FileTree.at?_put tree hparent, Option.bind_some, FileTree.at?_cons, hleaf]
  rfl

/-- What holds nothing and is put where no directory was changes no other
place. -/
theorem node?_put_of_ne (hparent : system.node? place = some .directory)
    (hold : system.node? (name :: place) ≠ some .directory) (hleaf : ∀ n, tree.child? n = none)
    (hne : other ≠ name :: place) :
    (system.put tree (name :: place)).node? other = system.node? other := by
  by_cases hsuffix : (name :: place) <:+ other
  · rw [node?_put_below hparent hleaf hsuffix hne, node?_of_suffix hold hsuffix hne]
  · exact node?_put hsuffix

/-! ## following -/

/-- Something is under a name in a directory if the directory has an entry for
it. -/
theorem isSome_node?_cons {part : String} {entries : List (String × FileTree)}
    (h : system.root.at? place.reverse = some (.directory entries)) :
    (system.node? (part :: place)).isSome ↔ entries.any (·.1 = part) = true := by
  have hchild : system.root.at? (part :: place).reverse =
      (FileTree.directory entries).child? part := by
    rw [List.reverse_cons, FileTree.at?_append, h]
    exact Option.bind_fun_some _
  rw [node?, FileTree.node?, hchild, FileTree.child?, Option.isSome_map, Option.isSome_map,
    List.find?_isSome, List.any_eq_true]

/-- A part of a path is followed from a directory: it stays there, leads up, or
leads to something in it. -/
theorem step_eq_ok_iff {part : String} :
    system.step place part = .ok other ↔
      system.node? place = some .directory ∧
        if isIdlePart part then other = place
        else if part = ".." then other = place.tail
        else part.utf8ByteSize ≤ 255 ∧ (system.node? (part :: place)).isSome ∧
          other = part :: place := by
  rw [step]
  split
  · next hnone => simp [node?, FileTree.node?, hnone]
  · next hfile => simp [node?, FileTree.node?, hfile, FileTree.node]
  · next entries hentries =>
      rw [and_iff_right (node?_eq_directory_iff.mpr ⟨entries, hentries⟩),
        isSome_node?_cons hentries]
      split
      · exact Except.pure_eq_ok_iff.trans eq_comm
      · split
        · exact Except.pure_eq_ok_iff.trans eq_comm
        · by_cases hsize : part.utf8ByteSize ≤ 255
          · rw [if_neg (Nat.not_lt.mpr hsize), and_iff_right hsize]
            split
            · next hthere =>
                rw [and_iff_right hthere]
                exact Except.pure_eq_ok_iff.trans eq_comm
            · next hthere => exact ⟨fun h => by contradiction, fun h => absurd h.1 hthere⟩
          · rw [if_pos (Nat.not_le.mp hsize)]
            exact ⟨fun h => by contradiction, fun h => absurd h.1 hsize⟩

/-- All directories are still directories, and where something was there is
still something. -/
structure Within (system system' : FileSystem) : Prop where
  current : system'.current = system.current
  directory {place : List String} :
    system.node? place = some .directory → system'.node? place = some .directory
  there {place : List String} : (system.node? place).isSome → (system'.node? place).isSome

/-- Putting a tree without entries where no directory is keeps all directories. -/
theorem within_put (hparent : system.node? place = some .directory)
    (hold : system.node? (name :: place) ≠ some .directory) (hleaf : ∀ n, tree.child? n = none) :
    system.Within (system.put tree (name :: place)) where
  current := rfl
  directory {other} h := by
    rw [node?_put_of_ne hparent hold hleaf, h]
    rintro rfl
    exact hold h
  there {other} h := by
    by_cases hother : other = name :: place
    · rw [hother, node?_put_self hparent]
      rfl
    · rw [node?_put_of_ne hparent hold hleaf hother]
      exact h

/-- Steps along a path lead to the same place when directories are added. -/
theorem Within.step {part : String} (h : system.Within system')
    (hstep : system.step place part = .ok other) : system'.step place part = .ok other := by
  obtain ⟨hdirectory, hpart⟩ := step_eq_ok_iff.mp hstep
  refine step_eq_ok_iff.mpr ⟨h.directory hdirectory, ?_⟩
  split
  · next hidle => rwa [if_pos hidle] at hpart
  · next hidle =>
      rw [if_neg hidle] at hpart
      split
      · next hup => rwa [if_pos hup] at hpart
      · next hup =>
          rw [if_neg hup] at hpart
          exact ⟨hpart.1, h.there hpart.2.1, hpart.2.2⟩

theorem Within.foldlM_step {parts : List String} (h : system.Within system')
    (hparts : parts.foldlM system.step place = .ok other) :
    parts.foldlM system'.step place = .ok other := by
  induction parts generalizing place with
  | nil => exact hparts
  | cons part rest ih =>
      rw [List.foldlM_cons, Except.bind_eq_ok_iff] at hparts ⊢
      obtain ⟨next, hnext, hrest⟩ := hparts
      exact ⟨next, h.step hnext, ih hrest⟩

/-- The path is not refused as a whole. -/
def IsPath (path : String) : Prop :=
  '\x00' ∉ path.toList ∧ path ≠ "" ∧ path.utf8ByteSize ≤ 4095

/-- A path is followed step by step from the root or from the current directory. -/
theorem follow_eq_ok_iff {path : String} {parts : List String} :
    system.follow path parts = .ok place ↔ IsPath path ∧
      parts.foldlM system.step (if path.startsWith "/" then [] else system.current.reverse) =
        .ok place := by
  rw [follow, IsPath]
  split
  · next h => exact ⟨fun h => by contradiction, fun h' => absurd h h'.1.1⟩
  · next hnul =>
      split
      · next h => exact ⟨fun h => by contradiction, fun h' => absurd h h'.1.2.1⟩
      · next hempty =>
          split
          · next h =>
              exact ⟨fun h => by contradiction, fun h' => absurd h (Nat.not_lt.mpr h'.1.2.2)⟩
          · next hsize => rw [and_iff_right ⟨hnul, hempty, Nat.not_lt.mp hsize⟩]

/-- So do whole paths. -/
theorem Within.follow {path : String} {parts : List String} (h : system.Within system')
    (hfollow : system.follow path parts = .ok place) : system'.follow path parts = .ok place := by
  rw [follow_eq_ok_iff] at hfollow ⊢
  rw [h.current]
  exact ⟨hfollow.1, h.foldlM_step hfollow.2⟩

/-- Only a directory can be stepped from. -/
theorem directory_of_foldlM_step {parts : List String} (hparts : parts ≠ [])
    (h : parts.foldlM system.step place = .ok other) : system.node? place = some .directory := by
  obtain ⟨part, rest, rfl⟩ := List.exists_cons_of_ne_nil hparts
  rw [List.foldlM_cons] at h
  obtain ⟨_, hstep, _⟩ := Except.bind_eq_ok_iff.mp h
  exact (step_eq_ok_iff.mp hstep).1

theorem filter_ne_nil_of_getLast? {parts : List String} (hparts : parts ≠ [])
    (hlast : parts.getLast? ≠ some "") : parts.filter (· ≠ "") ≠ [] := by
  rw [List.getLast?_eq_some_getLast hparts] at hlast
  refine List.ne_nil_of_mem (List.mem_filter.mpr ⟨List.getLast_mem hparts, ?_⟩)
  exact decide_eq_true fun heq => hlast (congrArg some heq)

/-- Empty parts of a path add nothing, except for one at the end: it asks for a
directory. -/
theorem foldlM_step_of_filter {parts : List String} (hlast : parts.getLast? ≠ some "")
    (h : (parts.filter (· ≠ "")).foldlM system.step place = .ok other) :
    parts.foldlM system.step place = .ok other := by
  induction parts generalizing place with
  | nil => exact h
  | cons part rest ih =>
      rw [List.getLast?_cons] at hlast
      have hrest : rest.getLast? ≠ some "" := fun heq => hlast (by rw [heq]; rfl)
      by_cases hpart : part = ""
      · subst hpart
        rw [List.filter_cons, if_neg (by decide)] at h
        -- a part that is not empty comes later, and it is followed from a directory
        have hnonempty : rest.filter (· ≠ "") ≠ [] := by
          refine filter_ne_nil_of_getLast? ?_ hrest
          rintro rfl
          exact hlast rfl
        have hidle : system.step place "" = .ok place :=
          step_eq_ok_iff.mpr ⟨directory_of_foldlM_step hnonempty h, rfl⟩
        rw [List.foldlM_cons, hidle]
        exact ih hrest h
      · rw [List.filter_cons, if_pos (decide_eq_true hpart), List.foldlM_cons] at h
        obtain ⟨next, hnext, hmore⟩ := Except.bind_eq_ok_iff.mp h
        rw [List.foldlM_cons, hnext]
        exact ih hrest hmore

/-! ## operations -/

/-- All but the last name of a path lead to a directory, and the last name is
kept unless it is one or two points. -/
theorem locateLast_eq_ok_iff {path : String} {last : Option String} :
    system.locateLast path = .ok (place, last) ↔
      system.follow path ((pathParts path).filter (· ≠ "")).dropLast = .ok place ∧
        system.node? place = some .directory ∧
        ((pathParts path).filter (· ≠ "")).getLast?.filter (fun n => n ≠ "." && n ≠ "..") =
          last := by
  rw [locateLast, Except.bind_eq_ok_iff]
  constructor
  · rintro ⟨found, hfound, h⟩
    split at h
    · next entries hentries =>
        cases h
        exact ⟨hfound, node?_eq_directory_iff.mpr ⟨entries, hentries⟩, rfl⟩
    · contradiction
    · contradiction
  · rintro ⟨hfollow, hdirectory, rfl⟩
    obtain ⟨entries, hentries⟩ := node?_eq_directory_iff.mp hdirectory
    refine ⟨place, hfollow, ?_⟩
    rw [hentries]
    rfl

/-- A path with a last name is followed to that name, once something has it. -/
theorem locate_of_locateLast {path : String} (hslash : ¬ path.endsWith "/")
    (h : system.locateLast path = .ok (place, some name)) (hsize : name.utf8ByteSize ≤ 255)
    (hwithin : system.Within system') (hthere : (system'.node? (name :: place)).isSome) :
    system'.locate path = .ok (name :: place) := by
  obtain ⟨hfollow, hdirectory, hlast⟩ := locateLast_eq_ok_iff.mp h
  obtain ⟨hname, hspecial⟩ := Option.filter_eq_some_iff.mp hlast
  obtain ⟨hpath, hfollow⟩ := follow_eq_ok_iff.mp (hwithin.follow hfollow)
  have hempty : name ≠ "" :=
    of_decide_eq_true (List.mem_filter.mp (List.mem_of_getLast? hname)).2
  have hstep : system'.step place name = .ok (name :: place) := by
    refine step_eq_ok_iff.mpr ⟨hwithin.directory hdirectory, ?_⟩
    rw [Bool.and_eq_true, decide_eq_true_iff, decide_eq_true_iff] at hspecial
    rw [if_neg (by simp [isIdlePart, hempty, hspecial.1]), if_neg hspecial.2]
    exact ⟨hsize, hthere, rfl⟩
  refine follow_eq_ok_iff.mpr ⟨hpath, ?_⟩
  refine foldlM_step_of_filter (getLast?_pathParts hpath.2.1 hslash) ?_
  rw [← List.dropLast_append_getLast? name hname, List.foldlM_append, hfollow]
  show system'.step place name >>= pure = _
  rw [hstep]
  rfl

/-- A directory is made in a directory, where nothing was. -/
theorem exists_of_makeDirectory {path : String} (h : system.makeDirectory path = .ok system') :
    ∃ name place, system.node? place = some .directory ∧ system.node? (name :: place) = none ∧
      system' = system.put (.directory []) (name :: place) := by
  obtain ⟨⟨place, last⟩, hlocate, h⟩ := Except.bind_eq_ok_iff.mp h
  obtain ⟨_, hdirectory, _⟩ := locateLast_eq_ok_iff.mp hlocate
  cases last with
  | none => contradiction
  | some name =>
      dsimp only at h
      split at h
      · contradiction
      · split at h
        · contradiction
        · next hnone =>
            cases h
            refine ⟨name, place, hdirectory, ?_, rfl⟩
            rw [node?, FileTree.node?, Option.not_isSome_iff_eq_none.mp hnone]
            rfl

/-- Making a directory changes no file. -/
theorem sameFiles_of_makeDirectory {path : String} (h : system.makeDirectory path = .ok system') :
    SameFiles system system' := by
  obtain ⟨name, place, hparent, hnew, rfl⟩ := exists_of_makeDirectory h
  intro other
  by_cases hother : other = name :: place
  · subst hother
    rw [fileAt?, fileAt?, node?_put_self hparent, hnew]
    rfl
  · refine fileAt?_congr (node?_put_of_ne hparent ?_ (fun _ => rfl) hother)
    rw [hnew]
    exact fun h => by contradiction

/-- A file is written in a directory, under a name that no directory has. -/
theorem write_eq_ok_iff {path : String} {content : ByteArray} :
    system.write path content = .ok system' ↔
      ∃ name place, system.locateLast path = .ok (place, some name) ∧ ¬ path.endsWith "/" ∧
        name.utf8ByteSize ≤ 255 ∧ system.node? (name :: place) ≠ some .directory ∧
        system' = system.put (.file content) (name :: place) := by
  constructor
  · intro h
    obtain ⟨⟨place, last⟩, hlocate, h⟩ := Except.bind_eq_ok_iff.mp h
    cases last with
    | none => contradiction
    | some name =>
        dsimp only at h
        split at h
        · contradiction
        · next hslash =>
            split at h
            · contradiction
            · next hsize =>
                split at h
                · contradiction
                · next hfound =>
                    cases h
                    refine ⟨name, place, hlocate, hslash, Nat.not_lt.mp hsize, ?_, rfl⟩
                    intro hdirectory
                    obtain ⟨entries, hentries⟩ := node?_eq_directory_iff.mp hdirectory
                    exact hfound entries hentries
  · rintro ⟨name, place, hlocate, hslash, hsize, hold, rfl⟩
    refine Except.bind_eq_ok_iff.mpr ⟨_, hlocate, ?_⟩
    dsimp only
    rw [if_neg hslash, if_neg (Nat.not_lt.mpr hsize)]
    split
    · next entries hentries =>
        exact absurd (node?_eq_directory_iff.mpr ⟨entries, hentries⟩) hold
    · rfl

/-- A text is read back from its bytes. -/
theorem fromUTF8?_toUTF8 (text : String) : String.fromUTF8? text.toUTF8 = some text := by
  rw [String.fromUTF8?, String.toUTF8_eq_toByteArray, dif_pos text.isValidUTF8]
  rfl

/-- A file at the end of a path is read as its text. -/
theorem readText_of_locate {path text : String} (h : system.locate path = .ok place)
    (hfile : system.root.at? place.reverse = some (.file text.toUTF8)) :
    system.readText path = .ok text := by
  have hfind : system.find path = .ok (.file text.toUTF8) := by
    refine Except.bind_eq_ok_iff.mpr ⟨place, h, ?_⟩
    rw [hfile]
    rfl
  refine Except.bind_eq_ok_iff.mpr ⟨_, hfind, ?_⟩
  dsimp only
  rw [fromUTF8?_toUTF8]
  rfl

/-- A path leads to a place afterwards, the file there has a text, and no other
file differs. -/
structure Written (path text : String) (place : List String) (system system' : FileSystem) :
    Prop where
  locate : system'.locate path = .ok place
  readText : system'.readText path = .ok text
  rest : SameFilesBut place system system'

/-- Writing changes one file. -/
theorem exists_written_of_write {path text : String}
    (h : system.write path text.toUTF8 = .ok system') :
    ∃ place, Written path text place system system' := by
  obtain ⟨name, place, hlast, hslash, hsize, hold, rfl⟩ := write_eq_ok_iff.mp h
  obtain ⟨_, hparent, _⟩ := locateLast_eq_ok_iff.mp hlast
  have hlocate : (system.put (.file text.toUTF8) (name :: place)).locate path =
      .ok (name :: place) := by
    refine locate_of_locateLast hslash hlast hsize
      (within_put hparent hold fun _ => rfl) ?_
    rw [node?_put_self hparent]
    rfl
  exact ⟨name :: place, hlocate, readText_of_locate hlocate (at?_put_self hparent),
    fun other hother => fileAt?_congr (node?_put_of_ne hparent hold (fun _ => rfl) hother)⟩

end

/-! ## operations on the state -/

/-- A change takes effect if it succeeds. -/
theorem run_change (f : FileSystem → Except FileFault FileSystem) (system : FileSystem) :
    (change f).run system = match f system with
      | .ok system' => (.ok (), system')
      | .error fault => (.error fault, system) := by
  show (match f system with
    | .ok system' => (.ok (), system')
    | .error fault => (.error fault, system) : Except FileFault Unit × FileSystem) = _
  cases f system <;> rfl

theorem moves_readText (path : String) : Moves Eq (disk.readText path) := fun _ => rfl

theorem moves_names (path : String) : Moves Eq (disk.names path) := fun _ => rfl

theorem moves_isDirectory (path : String) : Moves Eq (disk.isDirectory path) := fun _ => rfl

theorem moves_pathExists (path : String) : Moves Eq (disk.pathExists path) := fun _ => rfl

/-- Making a directory changes no file. -/
theorem moves_makeDirectory (path : String) : Moves SameFiles (disk.makeDirectory path) := by
  intro system
  rw [show (disk.makeDirectory path).run system = (change (·.makeDirectory path)).run system from
    rfl, run_change]
  cases h : system.makeDirectory path with
  | error fault => exact Std.Refl.refl system
  | ok system' => exact sameFiles_of_makeDirectory h

theorem moves_ensureDirectory (path : String) : Moves SameFiles (disk.ensureDirectory path) := by
  refine (moves_makeDirectory path).bind fun result => ?_
  cases result with
  | ok => exact Moves.pure _
  | error fault =>
      refine (Moves.of_eq (moves_isDirectory path)).bind fun there => ?_
      exact Moves.pure _

/-- Making a directory and the missing ones above it changes no file. -/
theorem moves_ensureFirst (paths : List String) : Moves SameFiles (disk.ensureFirst paths) := by
  induction paths with
  | nil => exact Moves.pure _
  | cons path parents ih =>
      by_cases hpath : path = ""
      · subst hpath
        exact Moves.pure _
      · rw [Disk.ensureFirst]
        · refine (moves_ensureDirectory path).bind fun result => ?_
          split
          · refine ih.bind fun above => ?_
            cases above with
            | ok => exact moves_ensureDirectory path
            | error fault => exact Moves.pure _
          · exact Moves.pure _
        · exact hpath

/-- Making all directories on a path changes no file. -/
theorem moves_ensureDirectories (path : String) : Moves SameFiles (disk.ensureDirectories path) :=
  moves_ensureFirst (pathAncestors path)

end FileSystem

end Exemplar
