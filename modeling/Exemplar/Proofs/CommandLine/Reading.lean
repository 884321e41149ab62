import Exemplar.CommandLine.Run
import Exemplar.Proofs.File.FileSystem

/-!
# Exemplar.Proofs.CommandLine.Reading

Everything up to the output of a task only reads files: the search for the
paths that fit a pattern, the reading of documents, and what is made of them.

* `Glob.moves_search` — searching;
* `moves_output` — the output of a task.
-/

namespace Exemplar

open FileSystem

/-! ## searching -/

namespace Glob

/-- A search that goes through many places changes nothing if none of them does. -/
theorem moves_gather {α : Type} {search : α → ExceptT SearchError (StateM FileSystem) (List String)}
    (h : ∀ item, Moves Eq (search item).run) (items : List α) :
    Moves Eq (gather search items).run :=
  (Moves.mapM h items).bindExcept fun _ => Moves.pure _

section

variable {directoriesOnly : Bool} {fuel : Nat}

/-- One step below a directory changes nothing, if the steps after it do not. -/
theorem moves_below_succ
    (hreached : ∀ segments path, Moves Eq (reached disk directoriesOnly fuel segments path).run)
    (hvisit : ∀ segments path name,
      Moves Eq (visit disk directoriesOnly fuel segments path name).run)
    (segments : List Segment) (path : String) :
    Moves Eq (below disk directoriesOnly (fuel + 1) segments path).run := by
  cases segments with
  | nil => exact Moves.pure _
  | cons segment rest =>
      rw [below]
      refine (Moves.lift (moves_isDirectory path)).bindExcept fun isDirectory => ?_
      split
      · have hfound : ∀ isThere : Bool, Moves Eq (if isThere then
            reached disk directoriesOnly fuel rest (extend path segment.text)
            else pure []).run := by
          intro isThere
          split
          · exact hreached rest _
          · exact Moves.pure _
        dsimp only
        split
        · exact hfound isDirectory
        · exact (Moves.lift (moves_pathExists _)).bindExcept hfound
      · split
        · refine (Moves.lift (moves_names path)).bindExcept fun names => ?_
          cases names with
          | error fault => exact Moves.pure _
          | ok names =>
              refine (moves_gather (fun name => hreached rest _) _).bindExcept fun special => ?_
              refine (moves_gather (fun name => hvisit _ _ name) _).bindExcept fun listed => ?_
              exact Moves.pure _
        · exact Moves.pure _

/-- One step at a place that is reached changes nothing, either. -/
theorem moves_reached_succ
    (hbelow : ∀ segments path, Moves Eq (below disk directoriesOnly fuel segments path).run)
    (segments : List Segment) (path : String) :
    Moves Eq (reached disk directoriesOnly (fuel + 1) segments path).run := by
  cases segments with
  | nil =>
      rw [reached]
      split
      · exact (Moves.lift (moves_isDirectory path)).bindExcept fun _ => Moves.pure _
      · exact Moves.pure _
  | cons segment rest => exact hbelow _ path

/-- Nor does a visit to one name of a directory. -/
theorem moves_visit_succ
    (hbelow : ∀ segments path, Moves Eq (below disk directoriesOnly fuel segments path).run)
    (hreached : ∀ segments path, Moves Eq (reached disk directoriesOnly fuel segments path).run)
    (segments : List Segment) (path name : String) :
    Moves Eq (visit disk directoriesOnly (fuel + 1) segments path name).run := by
  rw [visit]
  split
  · exact Moves.pure _
  · next segment rest _ =>
      split
      · refine (Moves.lift (moves_isDirectory path)).bindExcept fun isDirectory => ?_
        have hdeeper : ∀ here : List String, Moves Eq (do
            let deeper ← if isDirectory then below disk directoriesOnly fuel (segment :: rest) path
              else pure []
            return here ++ deeper : ExceptT SearchError (StateM FileSystem) (List String)).run := by
          intro here
          dsimp only
          split
          · exact (hbelow _ path).bindExcept fun _ => Moves.pure _
          · exact Moves.pure _
        dsimp only
        split
        · exact hdeeper _
        · split
          · exact (hreached _ path).bindExcept hdeeper
          · exact hdeeper _
      · split
        · exact hreached rest path
        · exact Moves.pure _

/-- All searches only read, whatever the bound on their steps is. -/
theorem moves_searches (directoriesOnly : Bool) (fuel : Nat) :
    (∀ segments path, Moves Eq (below disk directoriesOnly fuel segments path).run) ∧
      (∀ segments path, Moves Eq (reached disk directoriesOnly fuel segments path).run) ∧
      ∀ segments path name, Moves Eq (visit disk directoriesOnly fuel segments path name).run := by
  induction fuel with
  | zero =>
      refine ⟨fun segments path => ?_, fun segments path => ?_, fun segments path name => ?_⟩
      · exact Moves.pure _
      · exact Moves.pure _
      · exact Moves.pure _
  | succ fuel ih =>
      obtain ⟨hbelow, hreached, hvisit⟩ := ih
      exact ⟨moves_below_succ hreached hvisit, moves_reached_succ hbelow,
        moves_visit_succ hbelow hreached⟩

end

/-- Searching only reads. -/
theorem moves_search (pattern : PathPattern) : Moves Eq (disk.search pattern) :=
  (moves_searches _ _).1 _ _

end Glob

/-! ## tasks -/

namespace CommandLine

/-- Finding the files of an argument changes nothing. -/
theorem moves_findFile (argument : String) : Moves Eq (findFile disk argument).run := by
  rw [findFile]
  split
  · rw [findMatching]
    split
    · exact Moves.pure _
    · refine (Moves.lift (Glob.moves_search _)).bindExcept fun found => ?_
      split
      · exact Moves.pure _
      · exact Moves.pure _
      · exact Moves.pure _
  · exact Moves.pure _

/-- Reading a document changes nothing. -/
theorem moves_readDocument (pointer : Option String) (path : String) :
    Moves Eq (readDocument disk pointer path).run :=
  (Moves.lift (moves_readText path)).bindExcept fun _ => Moves.ofExcept _

/-- Loading the class table changes nothing. -/
theorem moves_loadTable (options : ModelOptions) : Moves Eq (loadTable disk options).run := by
  refine Moves.bindExcept ?_ fun paths => ?_
  · exact (Moves.mapM moves_findFile _).bindExcept fun _ => Moves.pure _
  · refine (Moves.mapM (moves_readDocument _) paths).bindExcept fun documents => ?_
    exact Moves.ofExcept _

/-- Making an output only reads. -/
theorem moves_output (task : Task) (now : ClockReading) : Moves Eq (task.output disk now).run :=
  (moves_loadTable _).bindExcept fun _ => Moves.ofExcept _

end CommandLine

end Exemplar
