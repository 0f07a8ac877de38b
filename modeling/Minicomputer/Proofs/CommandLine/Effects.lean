import Minicomputer.Proofs.CommandLine.Status
import Minicomputer.Proofs.Console.Unreadable

/-!
# What a call does, and how it ends

A call reads a file, perhaps writes one, and perhaps executes a program.  To say which of these it
does, and in which order, a call is *watched*: what it does is taken down, and everything else is as
before.

* `CommandLine.Act`, `CommandLine.Watched`, `CommandLine.watchedCall` -- a call that is watched;
* `CommandLine.call_eq_watchedCall` -- it is the same call;
* `CommandLine.Goes`, `CommandLine.goes` -- the ways that a call can go;
* `CommandLine.status_follows_result` -- the exit status and the acts, for all options.
-/

namespace Minicomputer

namespace CommandLine

/-! ## Calls that are watched -/

/-- What a call can do that matters outside of it. -/
inductive Act where
  | read (path : String)
  | write (path : String) (content : Bytes)
  | execute (program : Program)
  deriving DecidableEq, Repr

/-- A file system, and what has been done so far. -/
structure Watched where
  files : FileSystem
  acts : List Act

/-- Does something in the file system, which counts as these acts. -/
def Watched.during {α : Type} (acts : List Act) (action : StateM FileSystem α) :
    StateM Watched α := fun watched =>
  match action.run watched.files with
  | (value, files) => (value, ⟨files, watched.acts ++ acts⟩)

/-- The surroundings, with everything taken down that is done to a file. -/
def Surroundings.watched (outside : Surroundings (StateM FileSystem)) :
    Surroundings (StateM Watched) where
  readFile path := Watched.during [.read path] (outside.readFile path)
  writeFile path content := Watched.during [.write path content] (outside.writeFile path content)
  readInput := Watched.during [] outside.readInput

/-- What `perform` does, where it is left open how a program is executed. -/
def performBy {m : Type → Type} [Monad m] (surroundings : Surroundings m)
    (execute : Program → String → m (Option Report)) (options : Options) :
    Task → m (Option Report)
  | .list =>
    return some (.ofText .shown (Architecture.standard.listing ++ "\n"))
  | .run image => do
    match ImageFile.programOf image (← surroundings.readFile image) with
    | .error cause => return some (.ofText (.failed (.image cause)) "")
    | .ok program => execute program ""
  | .assemble source => do
    match assembleContent source (← surroundings.readFile source) with
    | .error error => return some (.ofText (.failed error) "")
    | .ok (program, summary) =>
      match ← writeImage surroundings options program with
      | .error error => return some (.ofText (.failed error) summary.text)
      | .ok () =>
        if options.has .noExecution then
          return some (.ofText .assembled (summary.text ++ shownProgram options program))
        else
          execute program summary.text

theorem perform_eq_performBy {m : Type → Type} [Monad m] (surroundings : Surroundings m)
    (options : Options) (task : Task) :
    perform surroundings options task =
      performBy surroundings (runProgram surroundings options) options task := by
  cases task with
  | list => rfl
  | run image => rfl
  | assemble source => rfl

/-- Runs a program, which counts as one act. -/
def watchedRun (outside : Surroundings (StateM FileSystem)) (options : Options) (program : Program)
    (printed : String) : StateM Watched (Option Report) :=
  Watched.during [.execute program] (runProgram outside options program printed)

/-- A call that is watched, once its arguments have been read. -/
def watchedCall (outside : Surroundings (StateM FileSystem)) (options : Options) :
    StateM Watched (Option Report) :=
  match options.task with
  | .error error => return some (.ofText (.misused error) "")
  | .ok task => performBy outside.watched (watchedRun outside options) options task

/-- The same happens, apart from what is taken down. -/
def Follows {α : Type} (watched : StateM Watched α) (plain : StateM FileSystem α) : Prop :=
  ∀ before : Watched,
    ((watched.run before).1, (watched.run before).2.files) = plain.run before.files

namespace Follows

variable {α β : Type}

theorem pure (value : α) : Follows (Pure.pure value) (Pure.pure value) :=
  fun _ => rfl

theorem during (acts : List Act) (action : StateM FileSystem α) :
    Follows (Watched.during acts action) action :=
  fun _ => rfl

theorem bind {watched : StateM Watched α} {plain : StateM FileSystem α}
    {watched' : α → StateM Watched β} {plain' : α → StateM FileSystem β}
    (first : Follows watched plain) (next : ∀ value, Follows (watched' value) (plain' value)) :
    Follows (watched >>= watched') (plain >>= plain') := by
  intro before
  -- Both sides go on with the same value, in the same files.
  rw [run_bind_of (first before).symm plain']
  exact next _ _

variable (outside : Surroundings (StateM FileSystem)) (options : Options)

theorem writeImage (program : Program) :
    Follows (CommandLine.writeImage outside.watched options program)
      (CommandLine.writeImage outside options program) := by
  unfold CommandLine.writeImage
  split
  · exact pure _
  · refine bind (during _ _) fun written => ?_
    cases written with
    | error cause => exact pure _
    | ok done => exact pure _

theorem performBy (task : Task) :
    Follows (CommandLine.performBy outside.watched (watchedRun outside options) options task)
      (perform outside options task) := by
  -- The two go through the same steps, and each step of one follows the same step of the other.
  rw [perform_eq_performBy]
  cases task with
  | list => exact pure _
  | run image =>
    refine bind (during _ _) fun found => ?_
    cases ImageFile.programOf image found with
    | error cause => exact pure _
    | ok program => exact during _ _
  | assemble source =>
    refine bind (during _ _) fun found => ?_
    cases assembleContent source found with
    | error error => exact pure _
    | ok result =>
      refine bind (writeImage outside options result.1) fun written => ?_
      cases written with
      | error error => exact pure _
      | ok done =>
        dsimp only
        split
        · exact pure _
        · exact during _ _

end Follows

/-- A call is not changed by being watched. -/
theorem call_eq_watchedCall {outside : Surroundings (StateM FileSystem)} {arguments : List String}
    {environment : String → Option String} {options : Options}
    (read : readArguments arguments environment = .ok options) (before : Watched) :
    (call outside arguments environment).run before.files =
      (((watchedCall outside options).run before).1,
        ((watchedCall outside options).run before).2.files) := by
  unfold call watchedCall
  rw [read]
  dsimp only
  cases options.task with
  | error error => rfl
  | ok task => exact (Follows.performBy outside options task before).symm

/-! ## The ways that a call can go -/

/-- Somebody asks for the listing. -/
def Options.Lists (options : Options) : Prop :=
  options.has .info = true ∨ options.has .instructions = true

/-- The file is a text that is assembled to the program. -/
def Assembles (files : FileSystem) (source : String) (program : Program) : Prop :=
  ∃ content text summary, files.read source = .ok content ∧ Text.ofBytes? content = some text ∧
    Assembler.assemble .standard text = .ok (program, summary)

/-- The file holds the image of the program. -/
def Holds (files : FileSystem) (image : String) (program : Program) : Prop :=
  ∃ content, files.read image = .ok content ∧ Program.ofImage content = .ok program

/-- The program that somebody asks for: that of the source, or else that of the image. -/
inductive Options.Obtains (options : Options) (files : FileSystem) (program : Program) : Prop
  | source {source : String} (asked : options.source = some source)
      (assembles : Assembles files source program)
  | image {image : String} (noSource : options.source = none) (asked : options.image = some image)
      (holds : Holds files image program)

theorem assembles_iff {files : FileSystem} {source : String} {program : Program} :
    Assembles files source program ↔
      ∃ summary, assembleContent source (files.read source) = .ok (program, summary) := by
  unfold assembleContent
  constructor
  · rintro ⟨content, text, summary, found, isText, assembled⟩
    refine ⟨summary, ?_⟩
    rw [found]
    dsimp only
    rw [isText]
    dsimp only
    rw [assembled]
  · rintro ⟨summary, result⟩
    split at result
    next => cases result
    next content found =>
    split at result
    next => cases result
    next text isText =>
    split at result
    next => cases result
    next pair assembled =>
      cases result
      exact ⟨content, text, summary, found, isText, assembled⟩

theorem holds_iff {files : FileSystem} {image : String} {program : Program} :
    Holds files image program ↔ ImageFile.read files image = .ok program := by
  unfold ImageFile.read ImageFile.programOf
  constructor
  · rintro ⟨content, found, whole⟩
    rw [found]
    dsimp only
    rw [whole]
  · intro result
    split at result
    next => cases result
    next content found =>
    split at result
    next => cases result
    next program' whole =>
      cases result
      exact ⟨content, found, whole⟩

/-- What becomes of the files between assembling and executing. -/
inductive Stores (options : Options) (files : FileSystem) (program : Program) :
    FileSystem → List Act → Prop
  | nothing (only : options.has .runOnly = true) : Stores options files program files []
  | image {files' : FileSystem} (wanted : options.has .runOnly = false)
      (written : files.write options.outPath program.image = .ok files') :
      Stores options files program files' [.write options.outPath program.image]

namespace Stores

variable {options : Options} {files files' : FileSystem} {program : Program} {writes : List Act}
  (stored : Stores options files program files' writes)

include stored

theorem mem_iff {act : Act} :
    act ∈ writes ↔
      options.has .runOnly = false ∧ act = .write options.outPath program.image := by
  cases stored with
  | nothing only => simp [only]
  | image wanted written => simp [wanted]

theorem written (wanted : options.has .runOnly = false) :
    files.write options.outPath program.image = .ok files' := by
  cases stored with
  | nothing only => cases only.symm.trans wanted
  | image _ written => exact written

/-- What has been written could be written. -/
theorem wrote {path : String} {content : Bytes} (member : .write path content ∈ writes) :
    files.write path content = .ok files' := by
  obtain ⟨wanted, act⟩ := stored.mem_iff.mp member
  cases act
  exact stored.written wanted

theorem kept (only : options.has .runOnly = true) : files' = files := by
  cases stored with
  | nothing => rfl
  | image wanted => cases only.symm.trans wanted

end Stores

/-- The ways that a call can go: what it comes to, what becomes of the files, and what it does. -/
inductive Goes (input : Bytes) (options : Options) (files : FileSystem) :
    Option Report → FileSystem → List Act → Prop
  | lists (listed : options.Lists) :
      Goes input options files
        (some (.ofText .shown (Architecture.standard.listing ++ "\n"))) files []
  | imageFails {image : String} {cause : ImageError} (unlisted : ¬ options.Lists)
      (noSource : options.source = none) (asked : options.image = some image)
      (failed : ImageFile.read files image = .error cause) :
      Goes input options files (some (.ofText (.failed (.image cause)) "")) files [.read image]
  | imageRuns {image : String} {program : Program} (unlisted : ¬ options.Lists)
      (noSource : options.source = none) (asked : options.image = some image)
      (found : ImageFile.read files image = .ok program) :
      Goes input options files (ranProgram input options program "") files
        [.read image, .execute program]
  | sourceFails {source : String} {error : CommandError} (unlisted : ¬ options.Lists)
      (asked : options.source = some source)
      (failed : assembleContent source (files.read source) = .error error) :
      Goes input options files (some (.ofText (.failed error) "")) files [.read source]
  | writeFails {source : String} {program : Program} {summary : AssemblySummary}
      {cause : FileError} (unlisted : ¬ options.Lists) (asked : options.source = some source)
      (assembled : assembleContent source (files.read source) = .ok (program, summary))
      (wanted : options.has .runOnly = false)
      (failed : files.write options.outPath program.image = .error cause) :
      Goes input options files
        (some (.ofText (.failed (.image (.unwritable options.outPath cause))) summary.text)) files
        [.read source, .write options.outPath program.image]
  | stops {source : String} {program : Program} {summary : AssemblySummary}
      {files' : FileSystem} {writes : List Act} (unlisted : ¬ options.Lists)
      (asked : options.source = some source)
      (assembled : assembleContent source (files.read source) = .ok (program, summary))
      (stored : Stores options files program files' writes)
      (stop : options.has .noExecution = true) :
      Goes input options files
        (some (.ofText .assembled (summary.text ++ shownProgram options program))) files'
        (.read source :: writes)
  | sourceRuns {source : String} {program : Program} {summary : AssemblySummary}
      {files' : FileSystem} {writes : List Act} (unlisted : ¬ options.Lists)
      (asked : options.source = some source)
      (assembled : assembleContent source (files.read source) = .ok (program, summary))
      (stored : Stores options files program files' writes)
      (goesOn : options.has .noExecution = false) :
      Goes input options files (ranProgram input options program summary.text) files'
        (.read source :: (writes ++ [.execute program]))

section

variable {files : FileSystem} {input : Bytes} {options : Options} {acts : List Act}

/-- Something that is done while a call is watched. -/
theorem run_during {α : Type} {action : StateM FileSystem α} {value : α} {files' : FileSystem}
    (did : action.run files = (value, files')) (more : List Act) :
    (Watched.during more action).run ⟨files, acts⟩ = (value, ⟨files', acts ++ more⟩) := by
  unfold Watched.during
  exact congrArg (fun result : α × FileSystem =>
    (result.1, (⟨result.2, acts ++ more⟩ : Watched))) did

theorem run_readFile_watched (path : String) :
    ((Surroundings.ofInput input).watched.readFile path).run ⟨files, acts⟩ =
      (files.read path, ⟨files, acts ++ [.read path]⟩) :=
  run_during (@run_readFile files input path) _

theorem run_writeFile_watched (path : String) (content : Bytes) :
    ((Surroundings.ofInput input).watched.writeFile path content).run ⟨files, acts⟩ =
      match files.write path content with
      | .error cause => (.error cause, ⟨files, acts ++ [.write path content]⟩)
      | .ok written => (.ok (), ⟨written, acts ++ [.write path content]⟩) := by
  have wrote := @run_writeFile files input path content
  cases written : files.write path content with
  | error cause =>
    rw [written] at wrote
    exact run_during wrote _
  | ok files' =>
    rw [written] at wrote
    exact run_during wrote _

theorem run_watchedRun (program : Program) (printed : String) :
    (watchedRun (.ofInput input) options program printed).run ⟨files, acts⟩ =
      (ranProgram input options program printed, ⟨files, acts ++ [.execute program]⟩) :=
  run_during (run_runProgram files input program printed) _

/-- An image is stored as the options say, or it is to be written and cannot be. -/
theorem run_writeImage_watched (input : Bytes) (options : Options) (files : FileSystem)
    (acts : List Act) (program : Program) :
    (∃ files' writes, Stores options files program files' writes ∧
        (writeImage (Surroundings.ofInput input).watched options program).run ⟨files, acts⟩ =
          (.ok (), ⟨files', acts ++ writes⟩)) ∨
      ∃ cause, options.has .runOnly = false ∧
        files.write options.outPath program.image = .error cause ∧
        (writeImage (Surroundings.ofInput input).watched options program).run ⟨files, acts⟩ =
          (.error (.image (.unwritable options.outPath cause)),
            ⟨files, acts ++ [.write options.outPath program.image]⟩) := by
  unfold writeImage
  by_cases only : options.has .runOnly = true
  · refine .inl ⟨files, [], .nothing only, ?_⟩
    rw [if_pos only, List.append_nil]
    rfl
  · have wanted : options.has .runOnly = false := Bool.eq_false_iff.mpr only
    have wrote := @run_writeFile_watched files input acts options.outPath program.image
    rw [if_neg only]
    cases written : files.write options.outPath program.image with
    | error cause =>
      rw [written] at wrote
      refine .inr ⟨cause, wanted, rfl, ?_⟩
      rw [run_bind_of wrote]
      rfl
    | ok files' =>
      rw [written] at wrote
      refine .inl ⟨files', _, .image wanted written, ?_⟩
      rw [run_bind_of wrote]
      rfl

theorem goes_assemble {source : String} (unlisted : ¬ options.Lists)
    (asked : options.source = some source) :
    ∃ report files' acts, Goes input options files report files' acts ∧
      (performBy (Surroundings.ofInput input).watched (watchedRun (.ofInput input) options) options
        (.assemble source)).run ⟨files, []⟩ = (report, ⟨files', acts⟩) := by
  rw [performBy, run_bind_of (run_readFile_watched source)]
  cases assembled : assembleContent source (files.read source) with
  | error error => exact ⟨_, _, _, .sourceFails unlisted asked assembled, rfl⟩
  | ok result =>
    obtain ⟨program, summary⟩ := result
    dsimp only
    -- Whatever comes later happens only if the image has been stored.
    rcases run_writeImage_watched input options files [.read source] program with
      ⟨files', writes, stored, did⟩ | ⟨cause, wanted, failed, did⟩
    · rw [List.nil_append, run_bind_of did]
      dsimp only
      split
      next stop => exact ⟨_, _, _, .stops unlisted asked assembled stored stop, rfl⟩
      next goesOn =>
        rw [run_watchedRun]
        exact ⟨_, _, _,
          .sourceRuns unlisted asked assembled stored (Bool.eq_false_iff.mpr goesOn), rfl⟩
    · rw [List.nil_append, run_bind_of did]
      exact ⟨_, _, _, .writeFails unlisted asked assembled wanted failed, rfl⟩

theorem goes_run {image : String} (unlisted : ¬ options.Lists) (noSource : options.source = none)
    (asked : options.image = some image) :
    ∃ report files' acts, Goes input options files report files' acts ∧
      (performBy (Surroundings.ofInput input).watched (watchedRun (.ofInput input) options) options
        (.run image)).run ⟨files, []⟩ = (report, ⟨files', acts⟩) := by
  have read : ImageFile.programOf image (files.read image) = ImageFile.read files image := rfl
  rw [performBy, run_bind_of (run_readFile_watched image), read]
  cases found : ImageFile.read files image with
  | error cause => exact ⟨_, _, _, .imageFails unlisted noSource asked found, rfl⟩
  | ok program =>
    dsimp only
    rw [run_watchedRun]
    exact ⟨_, _, _, .imageRuns unlisted noSource asked found, rfl⟩

theorem task_of_lists (listed : options.Lists) : options.task = .ok .list := by
  have asked : (options.has .info || options.has .instructions) = true :=
    Bool.or_eq_true_iff.mpr listed
  rw [Options.task, if_pos asked]

theorem task_of_unlisted (unlisted : ¬ options.Lists) :
    options.task =
      match options.source, options.image with
      | some source, _ => .ok (.assemble source)
      | none, some image => .ok (.run image)
      | none, none => .error .nothingToDo := by
  have asked : ¬ (options.has .info || options.has .instructions) = true :=
    fun either => unlisted (Bool.or_eq_true_iff.mp either)
  unfold Options.task
  exact if_neg asked

/-- A call goes in one of these ways. -/
theorem goes (names : options.Lists ∨ options.source.isSome ∨ options.image.isSome) :
    ∃ report files' acts, Goes input options files report files' acts ∧
      (watchedCall (.ofInput input) options).run ⟨files, []⟩ = (report, ⟨files', acts⟩) := by
  unfold watchedCall
  by_cases listed : options.Lists
  · rw [task_of_lists listed]
    exact ⟨_, _, _, .lists listed, rfl⟩
  · rw [task_of_unlisted listed]
    cases source : options.source with
    | some path => exact goes_assemble listed source
    | none =>
      cases image : options.image with
      | some path => exact goes_run listed source image
      | none =>
        -- There would be nothing to do.
        rw [source, image] at names
        rcases names with listed' | named | named
        · exact absurd listed' listed
        · cases named
        · cases named

end

/-! ## What follows for each of them -/

/-- What is asked for fails: no program is obtained, or an image is to be written and is not. -/
def Fails (options : Options) (files : FileSystem) (acts : List Act) : Prop :=
  (∀ program, ¬ options.Obtains files program) ∨
    ∃ path content cause, .write path content ∈ acts ∧ files.write path content = .error cause

section

variable {files : FileSystem} {options : Options} {acts : List Act} {program : Program}

theorem not_fails (obtains : options.Obtains files program)
    (written : ∀ path content cause, .write path content ∈ acts →
      files.write path content ≠ .error cause) : ¬ Fails options files acts := by
  rintro (nothing | ⟨path, content, cause, member, failed⟩)
  · exact nothing program obtains
  · exact written path content cause member failed

theorem obtains_of_source {source : String} (asked : options.source = some source) :
    options.Obtains files program ↔ Assembles files source program := by
  constructor
  · intro obtains
    cases obtains with
    | source asked' assembles =>
      obtain rfl := Option.some.inj (asked.symm.trans asked')
      exact assembles
    | image noSource => cases asked.symm.trans noSource
  · exact .source asked

theorem obtains_of_image {image : String} (noSource : options.source = none)
    (asked : options.image = some image) :
    options.Obtains files program ↔ Holds files image program := by
  constructor
  · intro obtains
    cases obtains with
    | source asked' => cases noSource.symm.trans asked'
    | image _ asked' holds =>
      obtain rfl := Option.some.inj (asked.symm.trans asked')
      exact holds
  · exact .image noSource asked

end

namespace Goes

variable {input : Bytes} {options : Options} {files files' : FileSystem} {report : Option Report}
  {acts : List Act} (goes : Goes input options files report files' acts)

include goes

theorem eq_of_lists (listed : options.Lists) :
    report = some (.ofText .shown (Architecture.standard.listing ++ "\n")) ∧ files' = files ∧
      acts = [] := by
  cases goes with
  | lists => exact ⟨rfl, rfl, rfl⟩
  | imageFails unlisted | imageRuns unlisted | sourceFails unlisted | writeFails unlisted
  | stops unlisted | sourceRuns unlisted => exact absurd listed unlisted

/-- If there is a source, no other file is read. -/
theorem read_mem {source path : String} (asked : options.source = some source)
    (member : .read path ∈ acts) : path = source := by
  cases goes with
  | lists => cases member
  | imageFails _ noSource | imageRuns _ noSource => cases asked.symm.trans noSource
  | sourceFails _ asked' | writeFails _ asked' =>
    obtain rfl := Option.some.inj (asked.symm.trans asked')
    simpa using member
  | stops _ asked' _ stored | sourceRuns _ asked' _ stored =>
    obtain rfl := Option.some.inj (asked.symm.trans asked')
    simpa [stored.mem_iff] using member

/-- What is written is the image of the assembled program, unless that is only to be run. -/
theorem write_mem_iff (unlisted : ¬ options.Lists) {path : String} {content : Bytes} :
    .write path content ∈ acts ↔
      ∃ source program, options.source = some source ∧ Assembles files source program ∧
        options.has .runOnly = false ∧ path = options.outPath ∧ content = program.image := by
  cases goes with
  | lists listed => exact absurd listed unlisted
  | imageFails _ noSource | imageRuns _ noSource => simp [noSource]
  | sourceFails _ asked failed => simp [asked, assembles_iff, failed]
  | writeFails _ asked assembled wanted => simp [asked, assembles_iff, assembled, wanted]
  | stops _ asked assembled stored => simp [asked, assembles_iff, assembled, stored.mem_iff]
  | sourceRuns _ asked assembled stored => simp [asked, assembles_iff, assembled, stored.mem_iff]

/-- Execution is the last thing that is done. -/
theorem execute_last : acts.Pairwise fun act _ => ∀ program, act ≠ .execute program := by
  cases goes with
  | lists | imageFails | imageRuns | sourceFails | writeFails => simp
  | stops _ _ _ stored => cases stored <;> simp
  | sourceRuns _ _ _ stored => cases stored <;> simp

/-- The files are those in which the image has been written. -/
theorem files_of_write {path : String} {content : Bytes} {written : FileSystem}
    (member : .write path content ∈ acts) (wrote : files.write path content = .ok written) :
    files' = written := by
  cases goes with
  | lists | imageFails | imageRuns | sourceFails => simp at member
  | writeFails _ _ _ _ failed =>
    obtain ⟨rfl, rfl⟩ : path = options.outPath ∧ _ := by simpa using member
    cases failed.symm.trans wrote
  | stops _ _ _ stored | sourceRuns _ _ _ stored =>
    have wrote' := stored.wrote (by simpa using member)
    exact Except.ok.inj (wrote'.symm.trans wrote)

/-- If nothing is written, the files are those that there were before. -/
theorem files_of_no_write (none : ∀ path content, .write path content ∉ acts) : files' = files := by
  cases goes with
  | lists | imageFails | imageRuns | sourceFails | writeFails => rfl
  | stops _ _ _ stored =>
    cases only : options.has .runOnly with
    | true => exact stored.kept only
    | false =>
      have image := stored.mem_iff.mpr ⟨only, rfl⟩
      exact absurd (List.mem_cons_of_mem _ image) (none _ _)
  | sourceRuns _ _ _ stored =>
    cases only : options.has .runOnly with
    | true => exact stored.kept only
    | false =>
      have image := stored.mem_iff.mpr ⟨only, rfl⟩
      exact absurd (List.mem_cons_of_mem _ (List.mem_append_left _ image)) (none _ _)

/-- Unless only the listing is asked for, a call fails, or stops when it has been told to, or
executes the program that has been asked for. -/
theorem outcome (unlisted : ¬ options.Lists) :
    (Fails options files acts ∧ report.map (·.conclusion.exitStatus) = some 1 ∧
      ∀ program, .execute program ∉ acts) ∨
    (¬ Fails options files acts ∧ (options.source.isSome ∧ options.has .noExecution = true) ∧
      report.map (·.conclusion.exitStatus) = some 0 ∧ ∀ program, .execute program ∉ acts) ∨
    (¬ Fails options files acts ∧ ¬ (options.source.isSome ∧ options.has .noExecution = true) ∧
      ∃ program, options.Obtains files program ∧
        report.map (·.conclusion.exitStatus) = statusAfter input options program ∧
        ∀ program', .execute program' ∈ acts ↔ program' = program) := by
  cases goes with
  | lists listed => exact absurd listed unlisted
  | imageFails _ noSource asked failed =>
    refine .inl ⟨.inl fun program obtains => ?_, rfl, by simp⟩
    cases failed.symm.trans (holds_iff.mp ((obtains_of_image noSource asked).mp obtains))
  | imageRuns _ noSource asked found =>
    have obtains := (obtains_of_image noSource asked).mpr (holds_iff.mpr found)
    refine .inr (.inr ⟨not_fails obtains (by simp), by simp [noSource], _, obtains, ?_, by simp⟩)
    exact exitStatus_ranProgram options input "" _
  | sourceFails _ asked failed =>
    refine .inl ⟨.inl fun program obtains => ?_, rfl, by simp⟩
    obtain ⟨summary, assembled⟩ := assembles_iff.mp ((obtains_of_source asked).mp obtains)
    cases failed.symm.trans assembled
  | writeFails _ asked assembled wanted failed =>
    exact .inl ⟨.inr ⟨_, _, _, by simp, failed⟩, rfl, by simp⟩
  | stops _ asked assembled stored stop =>
    have obtains := (obtains_of_source asked).mpr (assembles_iff.mpr ⟨_, assembled⟩)
    -- An image that was to be written has been written, so nothing has failed.
    refine .inr (.inl ⟨not_fails obtains fun path content cause member failed => ?_,
      ⟨by simp [asked], stop⟩, rfl, by simp [stored.mem_iff]⟩)
    cases (stored.wrote (by simpa using member)).symm.trans failed
  | sourceRuns _ asked assembled stored goesOn =>
    have obtains := (obtains_of_source asked).mpr (assembles_iff.mpr ⟨_, assembled⟩)
    refine .inr (.inr ⟨not_fails obtains fun path content cause member failed => ?_,
      by simp [goesOn], _, obtains, exitStatus_ranProgram options input _ _,
      by simp [stored.mem_iff]⟩)
    cases (stored.wrote (by simpa using member)).symm.trans failed

end Goes

/-! ## The result -/

/-- What the exit status of a call, its acts and the files that it leaves have to do with what is
asked for and with what there is. -/
structure Conforms (input : Bytes) (options : Options) (files : FileSystem)
    (report : Option Report) (files' : FileSystem) (acts : List Act) : Prop where
  /-- The listing is printed, and nothing else is done. -/
  lists : options.Lists →
    report.map (·.output.bytes) =
        some (Text.toBytes (Architecture.standard.listing ++ "\n")) ∧
      report.map (·.conclusion.exitStatus) = some 0 ∧ acts = [] ∧ files' = files
  /-- If there is a source, no image is looked at. -/
  reads : ¬ options.Lists → ∀ source, options.source = some source →
    ∀ path, .read path ∈ acts → path = source
  /-- A file is written exactly if the source is assembled and not only to be run. -/
  writes_iff : ¬ options.Lists → ∀ source, options.source = some source →
    ((∃ path content, .write path content ∈ acts) ↔
      (∃ program, Assembles files source program) ∧ options.has .runOnly = false)
  /-- It is the file that is asked for, and the image of the program. -/
  writes : ¬ options.Lists → ∀ source, options.source = some source →
    ∀ path content, .write path content ∈ acts →
      path = options.outPath ∧ ∃ program, Assembles files source program ∧ content = program.image
  /-- If it could be written it holds that and nothing else. -/
  written : ∀ path content changed, .write path content ∈ acts →
    files.write path content = .ok changed → files' = changed ∧ files'.read path = .ok content
  /-- Nothing else changes a file. -/
  unwritten : (∀ path content, .write path content ∉ acts) → files' = files
  /-- Nothing is done after a program has been executed. -/
  execute_last : acts.Pairwise fun act _ => ∀ program, act ≠ .execute program
  /-- Where something fails nothing is executed. -/
  failed : ¬ options.Lists → Fails options files acts →
    report.map (·.conclusion.exitStatus) = some 1 ∧ ∀ program, .execute program ∉ acts
  /-- Unless it is the writing that fails, no file has changed. -/
  unobtained : ¬ options.Lists → (∀ program, ¬ options.Obtains files program) →
    (∀ path content, .write path content ∉ acts) ∧ files' = files
  /-- A source that is only to be assembled is not executed. -/
  stopped : ¬ options.Lists → options.source.isSome → options.has .noExecution = true →
    (∀ program, .execute program ∉ acts) ∧
      (¬ Fails options files acts → report.map (·.conclusion.exitStatus) = some 0)
  /-- Everything else is executed, unless something fails. -/
  executes : ¬ options.Lists → ¬ Fails options files acts →
    ¬ (options.source.isSome ∧ options.has .noExecution = true) →
      ∃ program, .execute program ∈ acts
  /-- What is executed is what has been asked for, and how it ends decides about the status. -/
  executed : ∀ program, .execute program ∈ acts →
    options.Obtains files program ∧
      report.map (·.conclusion.exitStatus) = statusAfter input options program

/-- A call in one of the ways that it can go. -/
theorem Goes.conforms {input : Bytes} {options : Options} {files files' : FileSystem}
    {report : Option Report} {acts : List Act}
    (goes : Goes input options files report files' acts) :
    Conforms input options files report files' acts where
  lists listed := by
    obtain ⟨rfl, rfl, rfl⟩ := goes.eq_of_lists listed
    exact ⟨congrArg some (Output.print_of_room_eq_none rfl _).2, rfl, rfl, rfl⟩
  reads _ source asked path := goes.read_mem asked
  writes_iff unlisted source asked := by
    simp only [goes.write_mem_iff unlisted, asked, Option.some.injEq]
    constructor
    · rintro ⟨_, _, _, program, rfl, assembles, wanted, -⟩
      exact ⟨⟨program, assembles⟩, wanted⟩
    · rintro ⟨⟨program, assembles⟩, wanted⟩
      exact ⟨_, _, source, program, rfl, assembles, wanted, rfl, rfl⟩
  writes unlisted source asked path content member := by
    obtain ⟨source', program, asked', assembles, -, path_eq, content_eq⟩ :=
      (goes.write_mem_iff unlisted).mp member
    obtain rfl := Option.some.inj (asked.symm.trans asked')
    exact ⟨path_eq, program, assembles, content_eq⟩
  written path content changed member wrote := by
    obtain rfl := goes.files_of_write member wrote
    exact ⟨rfl, FileSystem.read_of_write wrote⟩
  unwritten := goes.files_of_no_write
  execute_last := goes.execute_last
  failed unlisted fails := by
    rcases goes.outcome unlisted with ⟨-, status, idle⟩ | ⟨works, -⟩ | ⟨works, -⟩
    · exact ⟨status, idle⟩
    · exact absurd fails works
    · exact absurd fails works
  unobtained unlisted nothing := by
    have idle (path : String) (content : Bytes) : .write path content ∉ acts := by
      intro member
      obtain ⟨source, program, asked, assembles, -⟩ := (goes.write_mem_iff unlisted).mp member
      exact nothing program (.source asked assembles)
    exact ⟨idle, goes.files_of_no_write idle⟩
  stopped unlisted source stop := by
    rcases goes.outcome unlisted with ⟨fails, -, idle⟩ | ⟨-, -, status, idle⟩ | ⟨-, goesOn, -⟩
    · exact ⟨idle, fun works => absurd fails works⟩
    · exact ⟨idle, fun _ => status⟩
    · exact absurd ⟨source, stop⟩ goesOn
  executes unlisted works goesOn := by
    rcases goes.outcome unlisted with ⟨fails, -⟩ | ⟨-, stopped, -⟩ | ⟨-, -, program, -, -, executed⟩
    · exact absurd fails works
    · exact absurd stopped goesOn
    · exact ⟨program, (executed program).mpr rfl⟩
  executed program member := by
    -- For a listing there are no acts at all.
    have unlisted : ¬ options.Lists := by
      intro listed
      obtain ⟨-, -, rfl⟩ := goes.eq_of_lists listed
      cases member
    rcases goes.outcome unlisted with ⟨-, -, idle⟩ | ⟨-, -, -, idle⟩ | ⟨-, -, program', obtains,
      status, executed⟩
    · exact absurd member (idle program)
    · exact absurd member (idle program)
    · obtain rfl := (executed program).mp member
      exact ⟨obtains, status⟩

/-- Whatever the options are, as long as they ask for the listing or name a source or an image, the
exit status, the files that are written and the program that is executed are as `Conforms` says.
They are those of the call: it leaves the same files and comes to the same report when nobody
watches.  A console gives up only if its input is no text. -/
theorem status_follows_result (files : FileSystem) (input : Bytes) {arguments : List String}
    {environment : String → Option String} {options : Options}
    (read : readArguments arguments environment = .ok options)
    (names : options.Lists ∨ options.source.isSome ∨ options.image.isSome) :
    let outside := Surroundings.ofInput input
    let watched := (watchedCall outside options).run ⟨files, []⟩
    (call outside arguments environment).run files = (watched.1, watched.2.files) ∧
      Conforms input options files watched.1 watched.2.files watched.2.acts ∧
      ∀ (cpu last : Cpu) (fuel : Nat) (interrupted : Bool) (conversation : Conversation),
        cpu.run Conversation.host (fun _ => false) fuel (.new (.new input .unlimited)) =
            some (interrupted, last, conversation) →
          conversation.console.hasFailed = true →
            conversation.console.outcome = .error .unreadableInput ∧
              Text.ofBytes? input = none := by
  intro outside watched
  obtain ⟨report, files', acts, goes, ran⟩ := @goes files input options names
  have watched_eq : watched = (report, ⟨files', acts⟩) := ran
  refine ⟨call_eq_watchedCall read ⟨files, []⟩, ?_, fun _ _ _ _ _ => Cpu.failure_of_run⟩
  rw [watched_eq]
  exact goes.conforms

/-- A source whose program divides by what is typed at the console, with an image that is not looked
at: the program is written, and then it faults because a zero is typed. -/
theorem status_follows_result_fault :
    let files : FileSystem := ⟨[(["work"], .directory),
      (["work", "div.asm"], .file (Text.toBytes "IN R1\nDIV R2, R1\n"))], ["work"]⟩
    let arguments := ["old.bin", "--assemble", "div.asm", "--out", "new.bin", "--memory-words", "1"]
    let options : Options :=
      ⟨[], some "old.bin", some "div.asm", some "new.bin", some 1, none, none⟩
    let input := Text.toBytes "0\n"
    let result := (call (.ofInput input) arguments fun _ => none).run files
    readArguments arguments (fun _ => none) = .ok options ∧
      result.1.map (·.conclusion.exitStatus) = some 2 ∧
      result.2.read "new.bin" = .ok [0x60, 0x01, 0, 0, 0x24, 0x12, 0, 0] := by
  intro files arguments options input result
  have read : readArguments arguments (fun _ => none) = .ok options :=
    eq_ok_of_toOption (by decide +kernel)
  obtain ⟨same, conforms, -⟩ := status_follows_result files input read (.inr (.inl rfl))
  -- What is said about the watched call is said about this one.
  have report_eq := congrArg Prod.fst same
  have files_eq := congrArg Prod.snd same
  have unlisted : ¬ options.Lists := by
    unfold Options.Lists
    decide
  have assembles_iff (program : Program) :
      Assembles files "div.asm" program ↔ program = #[⟨0x60, 1, 0, 0⟩, ⟨0x24, 2, 1, 0⟩] := by
    have assembled : (assembleContent "div.asm" (files.read "div.asm")).toOption.map Prod.fst =
        some #[⟨0x60, 1, 0, 0⟩, ⟨0x24, 2, 1, 0⟩] := by decide +kernel
    obtain ⟨⟨_, summary⟩, returned, rfl⟩ := Option.map_eq_some_iff.mp assembled
    rw [assembles_iff, eq_ok_of_toOption returned]
    simp [eq_comm]
  have assembles := (assembles_iff _).mpr rfl
  have target : files.target options.outPath = .ok ["work", "new.bin"] :=
    eq_ok_of_toOption (by decide +kernel)
  have writable := FileSystem.exists_write target (by decide +kernel)
  have works : ¬ Fails options files _ :=
    not_fails (.source rfl assembles) fun path content cause member failed => by
      obtain ⟨rfl, -⟩ := conforms.writes unlisted "div.asm" rfl path content member
      obtain ⟨changed, wrote⟩ := writable content
      cases failed.symm.trans wrote
  refine ⟨read, ?_, ?_⟩
  · obtain ⟨program, executed⟩ := conforms.executes unlisted works (by decide)
    obtain ⟨obtains, status⟩ := conforms.executed program executed
    obtain rfl := (assembles_iff program).mp ((obtains_of_source rfl).mp obtains)
    rw [report_eq, status]
    decide +kernel
  · obtain ⟨path, content, member⟩ :=
      (conforms.writes_iff unlisted "div.asm" rfl).mpr ⟨⟨_, assembles⟩, rfl⟩
    obtain ⟨rfl, program, assembled, rfl⟩ :=
      conforms.writes unlisted "div.asm" rfl path content member
    obtain rfl := (assembles_iff program).mp assembled
    obtain ⟨changed, wrote⟩ := writable (Program.image #[⟨0x60, 1, 0, 0⟩, ⟨0x24, 2, 1, 0⟩])
    rw [files_eq]
    exact (conforms.written _ _ changed member wrote).2

end CommandLine
end Minicomputer
