import Minicomputer.CommandLine
import Minicomputer.Proofs.Console.Preamble
import Minicomputer.Proofs.ImageFile

/-!
# Running an image is running its source

A program can be assembled and run at once, or assembled into an image that is run later.  Both ways
come to the same: the run does not depend on where the program is from, and a program is read back
from its image.  The one difference that can be seen is the summary of the assembly, which is
printed in front when the program is assembled and run at once.

* `CommandLine.runProgram_behind` -- what has been printed before a run is in front of what it
  prints, and has no other influence;
* `CommandLine.Options.RunsAlike`, `CommandLine.seen_runProgram` -- options under which runs look
  the same;
* `CommandLine.image_runs_like_source` -- the two ways compared.
-/

namespace Minicomputer

namespace CommandLine

/-! ## What has been printed before -/

/-- The report with a preamble in front of what has been printed. -/
def Report.behind (preamble : Array UInt8) (report : Report) : Report :=
  { report with output := report.output.behind preamble }

theorem print_unlimited_append (first rest : String) :
    (Output.unlimited.print (Text.toBytes (first ++ rest))).2 =
      (Output.unlimited.print (Text.toBytes rest)).2.behind (Text.toBytes first).toArray := by
  have same : (#[] : Array UInt8) ++ Text.toBytes (first ++ rest) =
      (Text.toBytes first).toArray ++ ((#[] : Array UInt8) ++ Text.toBytes rest) := by
    rw [Text.toBytes_append]
    exact Array.toList_inj.mp (by simp)
  exact congrArg (fun written => (⟨written, none⟩ : Output)) same

theorem ofText_append (conclusion : Conclusion) (first rest : String) :
    Report.ofText conclusion (first ++ rest) =
      (Report.ofText conclusion rest).behind (Text.toBytes first).toArray :=
  congrArg (Report.mk conclusion) (print_unlimited_append first rest)

section

variable (options : Options) (first rest : String)

theorem runHeadless_behind (cpu : Cpu) :
    runHeadless options cpu (first ++ rest) =
      (runHeadless options cpu rest).map (·.behind (Text.toBytes first).toArray) := by
  unfold runHeadless
  rw [Option.map_map]
  congr 1
  funext ⟨interrupted, cpu, world⟩
  dsimp only [Function.comp]
  rw [String.append_assoc, String.append_assoc, ofText_append, String.append_assoc]

theorem runAtConsole_behind (cpu : Cpu) (input : Bytes) :
    runAtConsole cpu input (first ++ rest) =
      (runAtConsole cpu input rest).map (·.behind (Text.toBytes first).toArray) := by
  unfold runAtConsole
  have begins : Console.new input (Output.unlimited.print (Text.toBytes (first ++ rest))).2 =
      (Console.new input (Output.unlimited.print (Text.toBytes rest)).2).behind
        (Text.toBytes first).toArray := by
    rw [print_unlimited_append]
    rfl
  dsimp only
  rw [begins, Cpu.converse_behind, Option.map_map, Option.map_map]
  congr 1
  funext ⟨cpu, conversation⟩
  have outcome : (conversation.behind (Text.toBytes first).toArray).console.outcome =
      conversation.console.outcome := rfl
  dsimp only [Function.comp]
  rw [outcome]
  cases conversation.console.outcome with
  | error cause => rfl
  | ok ended =>
    exact congrArg (Report.mk _) (congrArg Prod.snd (Output.print_behind _ _ _))

end

/-! ## Runs -/

/-- What can be seen of a call: its exit status and its standard output. -/
def Report.seen (report : Report) : Nat × Bytes :=
  (report.conclusion.exitStatus, report.output.bytes)

theorem Report.seen_behind (text : String) (report : Report) :
    (report.behind (Text.toBytes text).toArray).seen =
      (report.seen.1, Text.toBytes text ++ report.seen.2) := by
  have bytes : (report.output.behind (Text.toBytes text).toArray).bytes =
      Text.toBytes text ++ report.output.bytes := by
    simp [Output.behind, Output.bytes]
  exact congrArg (Prod.mk _) bytes

/-- What a run comes to. -/
def ranProgram (input : Bytes) (options : Options) (program : Program) (printed : String) :
    Option Report :=
  let cpu := Cpu.boot .standard options.config program
  let printed := printed ++ shownProgram options program
  if options.has .headless then runHeadless options cpu printed
  else runAtConsole cpu input printed

section

variable (files : FileSystem) (input : Bytes) {options options' : Options} (program : Program)
  (printed : String)

/-- A run reads the standard input at most, and changes no files. -/
theorem run_runProgram :
    (runProgram (.ofInput input) options program printed).run files =
      (ranProgram input options program printed, files) := by
  unfold runProgram ranProgram
  dsimp only
  split
  · rfl
  · rfl

/-- What has been printed before a run is in front of what the run prints. -/
theorem ranProgram_append (rest : String) :
    ranProgram input options program (printed ++ rest) =
      (ranProgram input options program rest).map
        (·.behind (Text.toBytes printed).toArray) := by
  unfold ranProgram
  dsimp only
  rw [String.append_assoc]
  split
  · exact runHeadless_behind options printed _ _
  · exact runAtConsole_behind printed _ _ input

/-- The options ask for the same run.  Only whether a core dump is shown may differ; that is not on
the standard output.  How many events may be on their way makes no difference. -/
structure Options.RunsAlike (options options' : Options) : Prop where
  config : options.config = options'.config
  headless : options.has .headless = options'.has .headless
  showProgram : options.has .showProgram = options'.has .showProgram

theorem seen_ranProgram (alike : options.RunsAlike options') :
    (ranProgram input options program printed).map Report.seen =
      (ranProgram input options' program printed).map Report.seen := by
  have shown : shownProgram options program = shownProgram options' program := by
    rw [shownProgram, alike.showProgram]
    rfl
  unfold ranProgram
  rw [alike.config, alike.headless, shown]
  dsimp only
  split
  · unfold runHeadless
    rw [Option.map_map, Option.map_map]
    rfl
  · rfl

/-- With a text in front, and otherwise the same. -/
theorem seen_ranProgram_behind (alike : options.RunsAlike options') :
    (ranProgram input options' program printed).map Report.seen =
      (ranProgram input options program "").map fun report =>
        (report.conclusion.exitStatus, Text.toBytes printed ++ report.output.bytes) := by
  have behind : ranProgram input options' program printed =
      (ranProgram input options' program "").map (·.behind (Text.toBytes printed).toArray) := by
    rw [← ranProgram_append, String.append_empty]
  have front : Report.seen ∘ (fun report : Report => report.behind (Text.toBytes printed).toArray) =
      (fun seen : Nat × Bytes => (seen.1, Text.toBytes printed ++ seen.2)) ∘ Report.seen :=
    funext (Report.seen_behind printed)
  calc (ranProgram input options' program printed).map Report.seen
      = ((ranProgram input options' program "").map Report.seen).map
          fun seen => (seen.1, Text.toBytes printed ++ seen.2) := by
        rw [behind, Option.map_map, Option.map_map, front]
    _ = ((ranProgram input options program "").map Report.seen).map
          fun seen => (seen.1, Text.toBytes printed ++ seen.2) := by
        rw [seen_ranProgram input program "" alike]
    _ = _ := by
        rw [Option.map_map]
        rfl

end

/-! ## Calls -/

section

variable {files : FileSystem} {input : Bytes} {arguments : List String}
  {environment : String → Option String} {options : Options} {source path : String}

/-- The options ask for an image of the source at the path, and for nothing to be run. -/
structure Options.WritesImage (options : Options) (source path : String) : Prop where
  task : options.task = .ok (.assemble source)
  outPath : options.outPath = path
  writes : options.has .runOnly = false
  stops : options.has .noExecution = true

/-- The options ask for the program of the source to be run, and for no image. -/
structure Options.RunsSource (options : Options) (source : String) : Prop where
  task : options.task = .ok (.assemble source)
  writesNothing : options.has .runOnly = true
  goesOn : options.has .noExecution = false

/-- What a call does, once its arguments have been read. -/
theorem call_eq {m : Type → Type} [Monad m] {surroundings : Surroundings m} {task : Task}
    (read : readArguments arguments environment = .ok options) (asks : options.task = .ok task) :
    call surroundings arguments environment = perform surroundings options task := by
  rw [call, read]
  dsimp only
  rw [asks]

/-- One thing after another, in a file system or in any other state. -/
theorem run_bind_of {σ α β : Type} {before after : σ} {first : StateM σ α} {value : α}
    (did : first.run before = (value, after)) (next : α → StateM σ β) :
    (first >>= next).run before = (next value).run after := by
  rw [StateT.run_bind, did]
  rfl

theorem run_readFile :
    ((Surroundings.ofInput input).readFile path).run files = (files.read path, files) :=
  rfl

/-- What is to be written is written, or the files stay as they are. -/
theorem run_writeFile (content : Bytes) :
    ((Surroundings.ofInput input).writeFile path content).run files =
      match files.write path content with
      | .error cause => (.error cause, files)
      | .ok written => (.ok (), written) := by
  have found : (get : StateM FileSystem FileSystem).run files = (files, files) := rfl
  unfold Surroundings.ofInput
  rw [run_bind_of found]
  cases files.write path content with
  | error cause => rfl
  | ok written => rfl

theorem run_writeImage {program : Program} (writes : options.has .runOnly = false) :
    (writeImage (.ofInput input) options program).run files =
      match files.write options.outPath program.image with
      | .error cause => (.error (.image (.unwritable options.outPath cause)), files)
      | .ok written => (.ok (), written) := by
  have wrote := @run_writeFile files input options.outPath program.image
  unfold writeImage
  rw [writes, if_neg Bool.false_ne_true]
  cases written : files.write options.outPath program.image with
  | error cause =>
    rw [written] at wrote
    rw [run_bind_of wrote]
    rfl
  | ok changed =>
    rw [written] at wrote
    rw [run_bind_of wrote]
    rfl

/-- A call that only assembles. -/
theorem call_of_writesImage (read : readArguments arguments environment = .ok options)
    (writes : options.WritesImage source path) :
    (call (.ofInput input) arguments environment).run files =
      match assembleContent source (files.read source) with
      | .error error => (some (.ofText (.failed error) ""), files)
      | .ok (program, summary) =>
        match files.write path program.image with
        | .error cause =>
          (some (.ofText (.failed (.image (.unwritable path cause))) summary.text), files)
        | .ok written =>
          (some (.ofText .assembled (summary.text ++ shownProgram options program)), written) := by
  rw [call_eq read writes.task]
  unfold perform
  rw [run_bind_of run_readFile]
  cases assembleContent source (files.read source) with
  | error error => rfl
  | ok result =>
    obtain ⟨program, summary⟩ := result
    have wrote := @run_writeImage files input options program writes.writes
    rw [writes.outPath] at wrote
    dsimp only
    cases written : files.write path program.image with
    | error cause =>
      rw [written] at wrote
      rw [run_bind_of wrote]
      rfl
    | ok changed =>
      rw [written] at wrote
      rw [run_bind_of wrote, writes.stops]
      rfl

/-- A call that runs an image. -/
theorem call_of_image (read : readArguments arguments environment = .ok options)
    (asks : options.task = .ok (.run path)) {program : Program}
    (image : ImageFile.read files path = .ok program) :
    (call (.ofInput input) arguments environment).run files =
      (ranProgram input options program "", files) := by
  have image' : ImageFile.programOf path (files.read path) = .ok program := image
  rw [call_eq read asks]
  unfold perform
  rw [run_bind_of run_readFile, image']
  exact run_runProgram files input program ""

/-- A call that assembles and runs at once. -/
theorem call_of_runsSource (read : readArguments arguments environment = .ok options)
    (runs : options.RunsSource source) :
    (call (.ofInput input) arguments environment).run files =
      match assembleContent source (files.read source) with
      | .error error => (some (.ofText (.failed error) ""), files)
      | .ok (program, summary) => (ranProgram input options program summary.text, files) := by
  rw [call_eq read runs.task]
  unfold perform
  rw [run_bind_of run_readFile]
  cases assembleContent source (files.read source) with
  | error error => rfl
  | ok result =>
    obtain ⟨program, summary⟩ := result
    have nothing : (writeImage (.ofInput input) options program).run files = (.ok (), files) := by
      unfold writeImage
      rw [runs.writesNothing, if_pos rfl]
      rfl
    dsimp only
    rw [run_bind_of nothing, runs.goesOn, if_neg Bool.false_ne_true]
    exact run_runProgram files input program summary.text

end

/-! ## Two ways to run a source -/

/-- One call assembles a source into an image and stops, another runs the image that the first has
left behind, and a third assembles the source and runs it at once, in the files as they were before
the first.

* If the source is assembled, the first call ends with success exactly if the image can be written.
* If the first call ends with success, the second and the third end with the same status or both do
  not end, and they print the same behind the summary of the assembly, which only the third prints.
* If the source is not assembled, the first and the third fail with the same message, and no file
  has changed. -/
theorem image_runs_like_source (files : FileSystem) (input : Bytes) (source path : String)
    {assembling executing running : List String}
    {environment environment' environment'' : String → Option String}
    {options options' options'' : Options}
    (read : readArguments assembling environment = .ok options)
    (read' : readArguments executing environment' = .ok options')
    (read'' : readArguments running environment'' = .ok options'')
    (assembles : options.WritesImage source path) (executes : options'.task = .ok (.run path))
    (runs : options''.RunsSource source) (alike : options'.RunsAlike options'') :
    let outside := Surroundings.ofInput input
    let first := (call outside assembling environment).run files
    let second := (call outside executing environment').run first.2
    let third := (call outside running environment'').run files
    (∀ program summary, assembleContent source (files.read source) = .ok (program, summary) →
      (first.1.map (·.conclusion.exitStatus) = some 0 ↔
        ∃ files', files.write path program.image = .ok files') ∧
      (first.1.map (·.conclusion.exitStatus) = some 0 →
        third.1.map Report.seen =
          second.1.map fun report =>
            (report.conclusion.exitStatus, Text.toBytes summary.text ++ report.output.bytes))) ∧
    (∀ error, assembleContent source (files.read source) = .error error →
      first.1.map (·.conclusion.exitStatus) = some 1 ∧
      third.1.map (·.conclusion.exitStatus) = some 1 ∧
      first.1.map (·.conclusion.errorText) = third.1.map (·.conclusion.errorText) ∧
      first.2 = files ∧ third.2 = files) := by
  intro outside first second third
  have first_eq := @call_of_writesImage files input assembling environment options source path read
    assembles
  have third_eq := @call_of_runsSource files input running environment'' options'' source read'' runs
  refine ⟨?_, ?_⟩
  · intro program summary assembled
    rw [assembled] at first_eq third_eq
    dsimp only at first_eq third_eq
    have third_eq' : third.1 = ranProgram input options'' program summary.text :=
      congrArg Prod.fst third_eq
    cases written : files.write path program.image with
    | error cause =>
      -- The program is assembled but not written, so the first call is no success.
      rw [written] at first_eq
      have failed : first.1.map (·.conclusion.exitStatus) = some 1 :=
        congrArg (fun result => result.1.map (·.conclusion.exitStatus)) first_eq
      rw [failed]
      exact ⟨⟨nofun, fun ⟨_, changed⟩ => (nomatch changed)⟩, nofun⟩
    | ok files' =>
      rw [written] at first_eq
      have succeeded : first.1.map (·.conclusion.exitStatus) = some 0 :=
        congrArg (fun result => result.1.map (·.conclusion.exitStatus)) first_eq
      -- The second call finds the program in the file that the first has written.
      have left : first.2 = files' := congrArg Prod.snd first_eq
      have image : ImageFile.read first.2 path = .ok program := by
        rw [left]
        exact ImageFile.read_of_write (ImageFile.write_eq_ok_iff.mpr written)
      have second_eq : second.1 = ranProgram input options' program "" :=
        congrArg Prod.fst (call_of_image read' executes image)
      refine ⟨⟨fun _ => ⟨files', rfl⟩, fun _ => succeeded⟩, fun _ => ?_⟩
      rw [third_eq', second_eq]
      exact seen_ranProgram_behind input program summary.text alike
  · intro error unassembled
    rw [unassembled] at first_eq third_eq
    have same : first = third := first_eq.trans third_eq.symm
    have failed : first = (some (.ofText (.failed error) ""), files) := first_eq
    rw [← same, failed]
    exact ⟨rfl, rfl, rfl, rfl, rfl⟩

/-- A program that reads a value and shows it, assembled into an image and run from there, and
assembled and run at once. -/
theorem image_runs_like_source_echo :
    let files : FileSystem := ⟨[(["work"], .directory),
      (["work", "echo.asm"], .file (Text.toBytes "IN R1\nOUT R1\nHLT\n"))], ["work"]⟩
    let outside := Surroundings.ofInput (Text.toBytes "7\n")
    let nothing : String → Option String := fun _ => none
    let first := (call outside ["--assemble", "echo.asm", "--no-exec", "--out", "echo.bin"]
      nothing).run files
    let second := (call outside ["echo.bin"] nothing).run first.2
    let third := (call outside ["--assemble", "echo.asm", "--run"] nothing).run files
    first.1.map (·.conclusion.exitStatus) = some 0 ∧
      ∃ summary : String, third.1.map Report.seen =
        second.1.map fun report =>
          (report.conclusion.exitStatus, Text.toBytes summary ++ report.output.bytes) := by
  intro files outside nothing first second third
  have read : readArguments ["--assemble", "echo.asm", "--no-exec", "--out", "echo.bin"] nothing =
      .ok ⟨[.noExecution], none, some "echo.asm", some "echo.bin", none, none, none⟩ :=
    eq_ok_of_toOption (by decide +kernel)
  have read' : readArguments ["echo.bin"] nothing =
      .ok ⟨[], some "echo.bin", none, none, none, none, none⟩ :=
    eq_ok_of_toOption (by decide +kernel)
  have read'' : readArguments ["--assemble", "echo.asm", "--run"] nothing =
      .ok ⟨[.runOnly], none, some "echo.asm", none, none, none, none⟩ :=
    eq_ok_of_toOption (by decide +kernel)
  have same := image_runs_like_source files (Text.toBytes "7\n") "echo.asm" "echo.bin" read read'
    read'' ⟨rfl, rfl, rfl, rfl⟩ rfl ⟨rfl, rfl, rfl⟩ ⟨rfl, rfl, rfl⟩
  have assembles : (assembleContent "echo.asm" (files.read "echo.asm")).isOk = true := by
    decide +kernel
  cases assembled : assembleContent "echo.asm" (files.read "echo.asm") with
  | error error =>
    rw [assembled] at assembles
    cases assembles
  | ok result =>
    obtain ⟨program, summary⟩ := result
    obtain ⟨succeeds, alike⟩ := same.1 program summary assembled
    have target : files.target "echo.bin" = .ok ["work", "echo.bin"] :=
      eq_ok_of_toOption (by decide +kernel)
    have written := FileSystem.exists_write target (by decide +kernel) program.image
    exact ⟨succeeds.mpr written, summary.text, alike (succeeds.mpr written)⟩

end CommandLine
end Minicomputer
