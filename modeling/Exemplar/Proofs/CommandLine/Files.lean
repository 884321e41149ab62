import Exemplar.CommandLine.Report
import Exemplar.Proofs.ClassTable.Prelude
import Exemplar.Proofs.CommandLine.Options
import Exemplar.Proofs.CommandLine.Reading

/-!
# Exemplar.Proofs.CommandLine.Files

What a run of the program does to files.  The whole output is made before the
first directory is, and making it only reads; so a run that fails changes no
file, and one that succeeds changes the file that it is asked for or none.
That file has the text that goes to the standard output otherwise.

* `delivers_writeOutput` — writing the output;
* `execute_cases` — all runs: nothing has changed, or an output is written;
* `execute_files` — what a run shows, and the files afterwards.
-/

namespace Exemplar.CommandLine

open FileSystem

/-! ## writing -/

/-- What becomes of the files when a text is written: after an error no file
differs, and otherwise one has the text. -/
def Delivers {α : Type} (path text : String) (system : FileSystem) :
    Except RunError α × FileSystem → Prop
  | (.error _, after) => SameFiles system after
  | (.ok _, after) => ∃ place, Written path text place system after

theorem run_writeText (path text : String) (system : FileSystem) :
    (disk.writeText path text).run system = match system.write path text.toUTF8 with
      | .ok system' => (.ok (), system')
      | .error fault => (.error fault, system) :=
  run_change (·.write path text.toUTF8) system

/-- Making the directories above a file changes no file. -/
theorem moves_makeParents (path : String) : Moves SameFiles (makeParents disk path).run := by
  rw [makeParents]
  split
  · exact Moves.pure _
  · next parent _ =>
      refine (Moves.lift (moves_ensureDirectories parent)).bindExcept fun result => ?_
      cases result with
      | ok => exact Moves.pure _
      | error fault => exact Moves.pure _

theorem run_writeFile_of_ok {path text : String} {system after : FileSystem}
    (h : system.write path text.toUTF8 = .ok after) :
    (writeFile disk path text).run.run system = (.ok (), after) := by
  rw [writeFile, run_bind_of_ok (run_lift ((run_writeText path text system).trans (by rw [h])))]
  rfl

/-- A file that cannot be written is reported, and nothing has changed. -/
theorem run_writeFile_of_error {path text : String} {system : FileSystem} {fault : FileFault}
    (h : system.write path text.toUTF8 = .error fault) :
    (writeFile disk path text).run.run system = (.error (.write path fault), system) := by
  rw [writeFile, run_bind_of_ok (run_lift ((run_writeText path text system).trans (by rw [h])))]
  rfl

/-- Writing makes the directories above the file, and then the file. -/
theorem delivers_writeOutput (path text : String) (system : FileSystem) :
    Delivers path text system ((writeOutput disk path text).run.run system) := by
  have hparents := moves_makeParents path system
  cases h : (makeParents disk path).run.run system with
  | mk result above =>
      rw [h] at hparents
      cases result with
      | error e =>
          rw [writeOutput, run_bind_of_error h]
          exact hparents
      | ok =>
          rw [writeOutput, run_bind_of_ok h]
          cases hwrite : above.write path text.toUTF8 with
          | error fault =>
              rw [run_writeFile_of_error hwrite]
              exact hparents
          | ok after =>
              obtain ⟨place, hwritten⟩ := exists_written_of_write hwrite
              rw [run_writeFile_of_ok hwrite]
              exact ⟨place, hwritten.locate, hwritten.readText, hwritten.rest.of_sameFiles hparents⟩

/-- A text that is written to a file leaves nothing to print. -/
theorem run_deliver_some (path text : String) (system : FileSystem) :
    (deliver disk (some path) text).run.run system =
      (((writeOutput disk path text).run.run system).1.map fun _ => "",
        ((writeOutput disk path text).run.run system).2) := by
  cases hwrite : (writeOutput disk path text).run.run system with
  | mk outcome after =>
      cases outcome with
      | error e => exact run_bind_of_error hwrite
      | ok => exact run_bind_of_ok hwrite

section

variable {system after : FileSystem} {now : ClockReading} {command : Command}
  {arguments : List String} {text : String}

/-! ## commands -/

/-- The output of a task for the files of a file system. -/
def outputOn (system : FileSystem) (now : ClockReading) (task : Task) : Except RunError String :=
  ((task.output disk now).run.run system).1

/-- The output of a task is computed from the files, and changes none. -/
theorem run_output (task : Task) (now : ClockReading) (system : FileSystem) :
    (task.output disk now).run.run system = (outputOn system now task, system) :=
  Prod.ext rfl (moves_output task now system).symm

/-- An idle command changes nothing and prints nothing. -/
theorem run_command_of_isIdle (h : command.isIdle = true) :
    (command.run disk now).run.run system = (.ok "", system) := by
  rw [Command.run, if_pos h]
  rfl

/-- A command without output fails before anything is written. -/
theorem run_command_of_error {e : RunError} (h : command.isIdle = false)
    (houtput : outputOn system now command.task = .error e) :
    (command.run disk now).run.run system = (.error e, system) := by
  rw [Command.run, if_neg (by rw [h]; exact Bool.false_ne_true)]
  refine run_bind_of_error ?_
  rw [run_output, houtput]

/-- A command that has an output hands it out. -/
theorem run_command_of_ok (h : command.isIdle = false)
    (houtput : outputOn system now command.task = .ok text) :
    (command.run disk now).run.run system = (deliver disk command.out text).run.run system := by
  rw [Command.run, if_neg (by rw [h]; exact Bool.false_ne_true)]
  refine run_bind_of_ok ?_
  rw [run_output, houtput]

/-! ## the program -/

/-- Arguments that cannot be read are reported, and nothing has changed. -/
theorem execute_of_read_error {e : UsageError} (h : Command.read arguments = .error e) :
    (execute disk now arguments).run system = (report (.error (.usage e)), system) := by
  show (report ((run disk now arguments).run system).1, ((run disk now arguments).run system).2) = _
  rw [run, h]
  rfl

/-- The outcome of the command is reported. -/
theorem execute_of_read_ok {outcome : Except RunError String}
    (h : Command.read arguments = .ok command)
    (hrun : (command.run disk now).run.run system = (outcome, after)) :
    (execute disk now arguments).run system = (report (outcome.mapError .run), after) := by
  show (report ((run disk now arguments).run system).1, ((run disk now arguments).run system).2) = _
  rw [run, h]
  dsimp only
  rw [StateT.run_bind, hrun]
  cases outcome <;> rfl

/-- Without a file to write the text goes to the standard output. -/
theorem execute_of_out_eq_none (h : Command.read arguments = .ok command)
    (hidle : command.isIdle = false) (hout : command.out = none)
    (houtput : outputOn system now command.task = .ok text) :
    (execute disk now arguments).run system = (⟨text ++ "\n", "", 0⟩, system) := by
  have hrun : (command.run disk now).run.run system = (.ok (text ++ "\n"), system) := by
    rw [run_command_of_ok hidle houtput, hout]
    rfl
  exact execute_of_read_ok h hrun

/-- With one the text is written. -/
theorem execute_of_out_eq_some {path : String} (h : Command.read arguments = .ok command)
    (hidle : command.isIdle = false) (hout : command.out = some path)
    (houtput : outputOn system now command.task = .ok text) :
    (execute disk now arguments).run system =
      (report ((((writeOutput disk path text).run.run system).1.map fun _ => "").mapError .run),
        ((writeOutput disk path text).run.run system).2) := by
  refine execute_of_read_ok h ?_
  rw [run_command_of_ok hidle houtput, hout, run_deliver_some]

/-- A command that fails has an exit code that says so. -/
theorem code_report_ne_zero (e : RunError) : (report (.error (.run e))).code ≠ 0 := by
  show (1 : UInt32) ≠ 0
  decide

/-- After a failure nothing goes to the standard output. -/
theorem output_report {outcome : Except Failure String} (h : (report outcome).code ≠ 0) :
    (report outcome).output = "" := by
  cases outcome with
  | ok printed => exact absurd rfl h
  | error failure =>
      cases failure with
      | run error => rfl
      | usage error =>
          cases error with
          | help | version => exact absurd rfl h
          | _ => rfl

end

/-- A run leaves the file system as it is, and then it fails if it has a file
to write, or it has made the whole output and writes it. -/
theorem execute_cases (now : ClockReading) (arguments : List String) (system : FileSystem) :
    (((execute disk now arguments).run system).2 = system ∧
      ∀ command, Command.read arguments = .ok command → command.isIdle = false →
        command.out ≠ none → ((execute disk now arguments).run system).1.code ≠ 0) ∨
    ∃ command path text, Command.read arguments = .ok command ∧ command.isIdle = false ∧
      command.out = some path ∧ outputOn system now command.task = .ok text := by
  cases hread : Command.read arguments with
  | error e =>
      rw [execute_of_read_error hread]
      exact .inl ⟨rfl, fun _ h => by contradiction⟩
  | ok command =>
      cases hidle : command.isIdle with
      | true =>
          rw [execute_of_read_ok hread (run_command_of_isIdle hidle)]
          refine .inl ⟨rfl, ?_⟩
          rintro _ ⟨⟩ hidle'
          exact absurd (hidle'.symm.trans hidle) Bool.false_ne_true
      | false =>
          cases houtput : outputOn system now command.task with
          | error e =>
              rw [execute_of_read_ok hread (run_command_of_error hidle houtput)]
              exact .inl ⟨rfl, fun _ _ _ _ => code_report_ne_zero e⟩
          | ok text =>
              cases hout : command.out with
              | none =>
                  rw [execute_of_out_eq_none hread hidle hout houtput]
                  refine .inl ⟨rfl, ?_⟩
                  rintro _ ⟨⟩ _ hout'
                  exact absurd hout hout'
              | some path => exact .inr ⟨command, path, text, rfl, hidle, hout, houtput⟩

/-- **A run changes at most the file that it is asked for.**  If it fails,
nothing is printed and no file differs.  Without a file to write, or if it is
idle, nothing differs at all; a help text that is asked for is no failure.  If
it succeeds with a file to write, nothing is printed, no other file differs,
and the file has the text that the same arguments without the file print, less
the newline at the end. -/
theorem execute_files (now : ClockReading) (arguments : List String) (system : FileSystem) :
    let shown := ((execute disk now arguments).run system).1
    let after := ((execute disk now arguments).run system).2
    (shown.code ≠ 0 → shown.output = "" ∧ SameFiles system after) ∧
    ((∀ command, Command.read arguments = .ok command →
      command.out = none ∨ command.isIdle = true) → after = system) ∧
    ∀ command path, Command.read arguments = .ok command → command.out = some path →
      command.isIdle = false → shown.code = 0 →
        shown.output = "" ∧ ∃ place text, Written path text place system after ∧
          (execute disk now (withoutOut arguments)).run system =
            (⟨text ++ "\n", "", 0⟩, system) := by
  intro shown after
  have hshown : shown.code ≠ 0 → shown.output = "" := output_report
  obtain ⟨hafter, hfails⟩ | ⟨command, path, text, hread, hidle, hout, houtput⟩ :=
    execute_cases now arguments system
  · refine ⟨fun hcode => ⟨hshown hcode, ?_⟩, fun _ => hafter, ?_⟩
    · rw [show after = system from hafter]
      exact Std.Refl.refl system
    · intro command path hread hout hidle hcode
      exact absurd hcode (hfails command hread hidle (by rw [hout]; exact Option.some_ne_none path))
  · have hrun := execute_of_out_eq_some hread hidle hout houtput
    have hfiles := delivers_writeOutput path text system
    cases hwrite : (writeOutput disk path text).run.run system with
    | mk outcome written =>
        rw [hwrite] at hfiles hrun
        have hreport : shown = report ((outcome.map fun _ => "").mapError .run) :=
          congrArg Prod.fst hrun
        rw [show after = written from congrArg Prod.snd hrun]
        refine ⟨fun hcode => ⟨hshown hcode, ?_⟩, fun h => ?_, ?_⟩
        · cases outcome with
          | error e => exact hfiles
          | ok => exact absurd (by rw [hreport]; rfl) hcode
        · obtain hnone | hidle' := h command hread
          · exact absurd (hout.symm.trans hnone) (Option.some_ne_none path)
          · exact absurd (hidle.symm.trans hidle') Bool.false_ne_true
        · intro command' path' hread' hout' _ hcode
          cases hread.symm.trans hread'
          cases hout.symm.trans hout'
          cases outcome with
          | error e => exact absurd (by rw [← hcode, hreport]; rfl) (code_report_ne_zero e)
          | ok =>
              obtain ⟨place, hwritten⟩ := hfiles
              refine ⟨by rw [hreport]; rfl, place, text, hwritten, ?_⟩
              exact execute_of_out_eq_none (read_withoutOut hread) hidle rfl houtput

/-! ### a list of no classes -/

/-- A document without classes. -/
def emptyDocument : String := "\x7b\"classes\":[]\x7d"

/-- A directory that holds the document. -/
def workDirectory : FileSystem where
  root := .directory [("work", .directory [("model.json", .file emptyDocument.toUTF8)])]
  current := ["work"]

/-- The same directory with another one in it. -/
def listsDirectory : FileSystem where
  root := .directory
    [("work", .directory [("model.json", .file emptyDocument.toUTF8), ("lists", .directory [])])]
  current := ["work"]

/-- Lists the classes of the document. -/
def listCommand : ClassesCommand where
  model := ⟨["model.json"], none⟩
  showsLibrary := false

/-- The list goes to a file in a directory that is not there yet. -/
def listArguments : List String := ["classes", "-m", "model.json", "--out", "lists/classes.json"]

/-- What the arguments ask for. -/
def listToFile : Command := ⟨.classes listCommand, some "lists/classes.json", false⟩

/-- The document is read from its text. -/
theorem ofText_emptyDocument : Document.ofText emptyDocument = .ok ⟨[]⟩ := by
  have hempty : (Document.ofText emptyDocument).toOption.map (·.classes.length) = some 0 := by
    decide +kernel
  cases hdocument : Document.ofText emptyDocument with
  | error e =>
      rw [hdocument] at hempty
      contradiction
  | ok document =>
      rw [hdocument] at hempty
      rw [← List.eq_nil_of_length_eq_zero (Option.some.inj hempty)]

/-- Without a pointer, all of a file is the document. -/
theorem ofFile_none (path text : String) :
    Document.ofFile path (.ok text) none = (Document.ofText text).mapError .document := rfl

/-- The document is read from its file. -/
theorem run_readDocument_workDirectory :
    (readDocument disk none "model.json").run.run workDirectory = (.ok ⟨[]⟩, workDirectory) := by
  have hlocate : workDirectory.locate "model.json" = .ok ["model.json", "work"] := by
    decide +kernel
  have htext : workDirectory.readText "model.json" = .ok emptyDocument :=
    readText_of_locate hlocate rfl
  have hread : (disk.readText "model.json").run workDirectory =
      (.ok emptyDocument, workDirectory) := by
    show (workDirectory.readText "model.json", workDirectory) = _
    rw [htext]
  rw [readDocument, run_bind_of_ok (run_lift hread), ofFile_none, ofText_emptyDocument]
  rfl

theorem exists_outputOn_workDirectory (now : ClockReading) :
    ∃ text, outputOn workDirectory now (.classes listCommand) = .ok text := by
  have hfile : findFile disk "model.json" = pure ["model.json"] := by
    rw [findFile, show isPattern "model.json" = false by decide +kernel]
    rfl
  have hfind : (findFiles disk ["model.json"]).run.run workDirectory =
      (.ok ["model.json"], workDirectory) := by
    rw [findFiles, List.mapM_cons, hfile]
    rfl
  have hread : (["model.json"].mapM (readDocument disk none)).run.run workDirectory =
      (.ok [⟨[]⟩], workDirectory) := by
    rw [List.mapM_cons, run_bind_of_ok run_readDocument_workDirectory]
    rfl
  obtain ⟨table, hbuild⟩ : ∃ table, ClassTable.ofDocuments [⟨[]⟩] = .ok table :=
    ClassTable.exists_ofDocuments_iff.mpr ⟨fun _ h => absurd h List.not_mem_nil, List.nodup_nil⟩
  have hload : (loadTable disk listCommand.model).run.run workDirectory =
      (.ok table, workDirectory) := by
    rw [loadTable]
    show (findFiles disk ["model.json"] >>= _).run.run _ = _
    rw [run_bind_of_ok hfind]
    show (["model.json"].mapM (readDocument disk none) >>= _).run.run _ = _
    rw [run_bind_of_ok hread, hbuild]
    rfl
  refine ⟨listCommand.text table, ?_⟩
  rw [outputOn, Task.output]
  show ((loadTable disk listCommand.model >>= _).run.run _).1 = _
  rw [run_bind_of_ok hload]
  rfl

/-- The other directory is made. -/
theorem run_makeParents_workDirectory :
    (makeParents disk "lists/classes.json").run.run workDirectory = (.ok (), listsDirectory) := by
  have hlocate : workDirectory.locateLast "lists" = .ok (["work"], some "lists") := by
    decide +kernel
  have hmade : workDirectory.makeDirectory "lists" = .ok listsDirectory := by
    rw [FileSystem.makeDirectory, hlocate]
    rfl
  have hdirectory : (disk.makeDirectory "lists").run workDirectory = (.ok (), listsDirectory) := by
    rw [show disk.makeDirectory "lists" = change (·.makeDirectory "lists") from rfl, run_change,
      hmade]
  have hparent : parentPath? "lists/classes.json" = some "lists" := by decide +kernel
  have hancestors : pathAncestors "lists" = ["lists", ""] := by decide +kernel
  have hdirectories : (disk.ensureDirectories "lists").run workDirectory =
      (.ok (), listsDirectory) := by
    rw [Disk.ensureDirectories, hancestors, Disk.ensureFirst, StateT.run_bind,
      Disk.ensureDirectory, StateT.run_bind, hdirectory]
    · rfl
    · decide
  rw [makeParents, hparent, run_bind_of_ok (run_lift hdirectories)]
  rfl

theorem run_writeOutput_workDirectory (text : String) :
    ((writeOutput disk "lists/classes.json" text).run.run workDirectory).1 = .ok () := by
  have hlocate : listsDirectory.locateLast "lists/classes.json" =
      .ok (["lists", "work"], some "classes.json") := by decide +kernel
  obtain ⟨after, hwrite⟩ : ∃ after,
      listsDirectory.write "lists/classes.json" text.toUTF8 = .ok after :=
    ⟨_, write_eq_ok_iff.mpr ⟨_, _, hlocate, by decide +kernel, by decide +kernel,
      fun h => by contradiction, rfl⟩⟩
  rw [writeOutput, run_bind_of_ok run_makeParents_workDirectory, run_writeFile_of_ok hwrite]

theorem read_listArguments : Command.read listArguments = .ok listToFile := rfl

theorem code_execute_listArguments :
    ((execute disk .evening listArguments).run workDirectory).1.code = 0 := by
  obtain ⟨text, htext⟩ := exists_outputOn_workDirectory .evening
  rw [execute_of_out_eq_some read_listArguments rfl rfl htext, run_writeOutput_workDirectory]
  rfl

/-- The list is written, and nothing is printed. -/
theorem execute_files_listArguments :
    Command.read listArguments = .ok listToFile ∧
    withoutOut listArguments = ["classes", "-m", "model.json"] ∧
    let shown := ((execute disk .evening listArguments).run workDirectory).1
    let after := ((execute disk .evening listArguments).run workDirectory).2
    shown.code = 0 ∧ shown.output = "" ∧
      ∃ place text, Written "lists/classes.json" text place workDirectory after ∧
        (execute disk .evening (withoutOut listArguments)).run workDirectory =
          (⟨text ++ "\n", "", 0⟩, workDirectory) := by
  refine ⟨read_listArguments, rfl, code_execute_listArguments, ?_⟩
  exact (execute_files .evening listArguments workDirectory).2.2 listToFile _
    read_listArguments rfl rfl code_execute_listArguments

end Exemplar.CommandLine
