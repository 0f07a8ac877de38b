import Minicomputer.Proofs.Console.Talk

/-!
# A processor and its console, cycle by cycle

Seen from outside, a processor at a console goes from cycle to cycle, and in each cycle the console
handles what the cycle shows, asks for, or ends with.  Copies of the state that the observer gets in
between leave no trace, so neither their number nor who is still attached is part of the picture.

* `Scene.cycle` -- one cycle, with everything that the console does about it;
* `Cpu.step_after` -- this is what `Cpu.step` comes to, for all admissible answers;
* `Scene.Ends` -- the scene at which the cycles come to an end;
* `Cpu.run_ends_iff` -- a run in which events are handled at once ends at that scene.
-/

namespace Minicomputer

/-- What execution and a console have come to between two cycles. -/
structure Scene where
  core : Core
  console : Console
  deriving DecidableEq, Repr

namespace Scene

/-- What is left behind by an instruction that does not fault. -/
def complete (console : Console) (state : MachineState) :
    Machine.Effect state.memory.size → Scene
  | .proceed after target => ⟨⟨.running, after.complete target⟩, console⟩
  | .store address value =>
    ⟨⟨.running, (state.setMemory address value).complete (state.pc + 1)⟩, console⟩
  | .halt =>
    let state := (state.complete state.pc).halt
    ⟨⟨.halted, state⟩, (console.handle (.halted state)).2⟩
  | .output value =>
    ⟨⟨.running, state.complete (state.pc + 1)⟩, (console.handle (.output value)).2⟩
  | .input dest =>
    match console.handle .inputRequested with
    | (reply, console) =>
      ⟨⟨.running, (state.setRegister dest (reply.getD 0)).complete (state.pc + 1)⟩, console⟩

/-- What is left behind by a decoded instruction. -/
def perform (operation : Operation) (instruction : Instruction) (console : Console)
    (state : MachineState) : Scene :=
  match Machine.execute operation instruction state with
  | .error fault => ⟨⟨.faulted fault, state⟩, (console.handle (.faulted fault state)).2⟩
  | .ok effect => complete console state effect

/-- What a cycle leaves behind. -/
def cycle (architecture : Architecture) (program : Program) (scene : Scene) : Scene :=
  if scene.core.status.isTerminal then scene
  else match program[scene.core.state.pc]? with
    | none =>
      let state := scene.core.state.halt
      ⟨⟨.halted, state⟩, (scene.console.handle (.halted state)).2⟩
    | some instruction =>
      match architecture.operation? instruction.opcode with
      | none =>
        let fault := Fault.unknownOpcode scene.core.state.pc instruction.opcode
        ⟨⟨.faulted fault, scene.core.state⟩,
          (scene.console.handle (.faulted fault scene.core.state)).2⟩
      | some operation => perform operation instruction scene.console scene.core.state

variable {architecture : Architecture} {program : Program} {scene last last' : Scene}

/-- From here the cycles come to an end at the scene `last`. -/
inductive Ends (architecture : Architecture) (program : Program) : Scene → Scene → Prop
  | stopped {last : Scene} (terminal : last.core.status.isTerminal) :
      Ends architecture program last last
  | cycle {scene last : Scene} (going : ¬ scene.core.status.isTerminal)
      (later : Ends architecture program (scene.cycle architecture program) last) :
      Ends architecture program scene last

theorem Ends.unique (h : Ends architecture program scene last)
    (h' : Ends architecture program scene last') : last = last' := by
  induction h with
  | stopped terminal =>
    cases h' with
    | stopped _ => rfl
    | cycle going _ => exact absurd terminal going
  | cycle going later ih =>
    cases h' with
    | stopped terminal => exact absurd terminal going
    | cycle _ later' => exact ih later'

end Scene

namespace Cpu

variable {origin cpu : Cpu} {scene : Scene} {talk : Talk}

/-- The processor, which was `origin` once, and the talk show that scene, and nothing is on its
way. -/
structure Shows (origin : Cpu) (scene : Scene) (cpu : Cpu) (talk : Talk) : Prop where
  cpu_eq : cpu.detached = origin.detached.withCore scene.core
  console_eq : talk.console = scene.console
  quiet : talk.replies = []
  attended : cpu.Attended talk

theorem Shows.withCore_eq (shown : origin.Shows scene cpu talk) (core : Core) :
    cpu.detached.withCore core = origin.detached.withCore core := by
  rw [shown.cpu_eq]
  rfl

theorem Shows.status_eq (shown : origin.Shows scene cpu talk) : cpu.status = scene.core.status :=
  congrArg Cpu.status shown.cpu_eq

theorem Shows.state_eq (shown : origin.Shows scene cpu talk) : cpu.state = scene.core.state :=
  congrArg Cpu.state shown.cpu_eq

theorem Shows.architecture_eq (shown : origin.Shows scene cpu talk) :
    cpu.architecture = origin.architecture := by
  have same := congrArg architecture shown.cpu_eq
  exact same

theorem Shows.program_eq (shown : origin.Shows scene cpu talk) :
    cpu.program = origin.program := by
  have same := congrArg program shown.cpu_eq
  exact same

theorem perform_after (shown : origin.Shows scene cpu talk) (running : cpu.status = .running)
    (operation : Operation) (instruction : Instruction) :
    (cpu.perform operation instruction).After
      (origin.Shows (.perform operation instruction talk.console cpu.state)) talk := by
  have attended := shown.attended
  have core (c : Core) := shown.withCore_eq c
  unfold perform Scene.perform
  dsimp only
  cases Machine.execute operation instruction cpu.state with
  | error fault =>
    apply fail_after attended
    intro cpu' same attended'
    rw [Talk.handle_of_ne_request (.faulted fault cpu.state) nofun] at attended' ⊢
    exact ⟨same.trans (core _), rfl, shown.quiet, attended'⟩
  | ok effect =>
    cases effect with
    | proceed | store =>
      apply complete_after
      · exact ⟨attended.observed, attended.supplied⟩
      · intro cpu' same attended'
        dsimp only at same
        rw [running] at same
        exact ⟨same.trans (core _), rfl, shown.quiet, attended'⟩
    | halt =>
      apply halt_after
      · exact ⟨attended.observed, attended.supplied⟩
      · intro cpu' same attended'
        rw [Talk.handle_of_ne_request (.halted _) nofun] at attended' ⊢
        exact ⟨same.trans (core _), rfl, shown.quiet, attended'⟩
    | output value =>
      apply Dialogue.after_bind
      apply emit_after attended
      intro told same attended'
      rw [Talk.handle_of_ne_request (.output value) nofun] at attended' ⊢
      obtain ⟨status_eq, state_eq⟩ := core_of_detached same
      apply complete_after attended'
      intro cpu' same' attended''
      rw [same, status_eq, state_eq, running] at same'
      exact ⟨same'.trans (core _), rfl, shown.quiet, attended''⟩
    | input dest =>
      apply Dialogue.after_bind
      apply read_after attended shown.quiet
      intro asked same attended'
      obtain ⟨status_eq, state_eq⟩ := core_of_detached same
      apply complete_after
      · exact ⟨attended'.observed, attended'.supplied⟩
      · intro cpu' same' attended''
        dsimp only at same'
        rw [status_eq, state_eq, running] at same'
        refine ⟨same'.trans ?_, rfl, rfl, attended''⟩
        show asked.detached.withCore _ = _
        rw [same]
        exact core _

/-- One cycle leads from scene to scene, whatever the answers are. -/
theorem step_after (shown : origin.Shows scene cpu talk) :
    cpu.step.After (origin.Shows (scene.cycle origin.architecture origin.program)) talk := by
  have attended := shown.attended
  unfold step Scene.cycle
  rw [← shown.status_eq]
  by_cases terminal : cpu.status.isTerminal
  · rw [if_pos terminal, if_pos terminal]
    exact shown
  · rw [if_neg terminal, if_neg terminal]
    rw [← shown.state_eq, ← shown.architecture_eq, ← shown.program_eq]
    dsimp only
    cases cpu.program[cpu.state.pc]? with
    | none =>
      apply halt_after
      · exact ⟨attended.observed, attended.supplied⟩
      · intro cpu' same attended'
        rw [Talk.handle_of_ne_request (.halted _) nofun, shown.console_eq] at attended' ⊢
        exact ⟨same.trans (shown.withCore_eq _), rfl, shown.quiet, attended'⟩
    | some instruction =>
      dsimp only
      cases cpu.architecture.operation? instruction.opcode with
      | none =>
        apply fail_after
        · exact ⟨attended.observed, attended.supplied⟩
        · intro cpu' same attended'
          rw [Talk.handle_of_ne_request (.faulted _ _) nofun, shown.console_eq] at attended' ⊢
          exact ⟨same.trans (shown.withCore_eq _), rfl, shown.quiet, attended'⟩
      | some operation =>
        -- From here on the processor is running, which no operation looks at.
        have started : origin.Shows ⟨⟨.running, cpu.state⟩, talk.console⟩
            { cpu with status := .running } talk :=
          ⟨shown.withCore_eq ⟨.running, cpu.state⟩, rfl, shown.quiet, attended.observed,
            attended.supplied⟩
        rw [← shown.console_eq]
        exact perform_after started rfl operation instruction

/-! ## Runs in which events are handled at once -/

variable {conversation : Conversation}

theorem step_shows (shown : origin.Shows scene cpu conversation.talk) :
    origin.Shows (scene.cycle origin.architecture origin.program)
      (cpu.step.run Conversation.host conversation).1
      (cpu.step.run Conversation.host conversation).2.talk :=
  (step_after shown).run_host

theorem Shows.last_eq (shown : origin.Shows scene cpu talk) : ⟨cpu.core, talk.console⟩ = scene := by
  obtain ⟨⟨status, state⟩, console⟩ := scene
  obtain rfl : cpu.status = status := shown.status_eq
  obtain rfl : cpu.state = state := shown.state_eq
  obtain rfl : talk.console = console := shown.console_eq
  rfl

theorem exists_loop {last : Scene}
    (ends : Scene.Ends origin.architecture origin.program scene last)
    (shown : origin.Shows scene cpu conversation.talk) :
    ∃ fuel cpu' conversation',
      loop Conversation.host (fun _ => false) fuel cpu conversation =
          some (false, cpu', conversation') ∧
        origin.Shows last cpu' conversation'.talk := by
  induction ends generalizing cpu conversation with
  | stopped terminal =>
    rw [← shown.status_eq] at terminal
    refine ⟨0, cpu, conversation, ?_, shown⟩
    rw [loop, if_pos terminal]
  | cycle going later ih =>
    rw [← shown.status_eq] at going
    obtain ⟨fuel, cpu', conversation', looped, shown'⟩ := ih (step_shows shown)
    refine ⟨fuel + 1, cpu', conversation', ?_, shown'⟩
    rw [loop, if_neg going]
    exact looped

theorem ends_of_loop {fuel : Nat} {interrupted : Bool} {cpu' : Cpu} {conversation' : Conversation}
    (shown : origin.Shows scene cpu conversation.talk)
    (looped : loop Conversation.host (fun _ => false) fuel cpu conversation =
      some (interrupted, cpu', conversation')) :
    ∃ last, Scene.Ends origin.architecture origin.program scene last ∧
      origin.Shows last cpu' conversation'.talk := by
  induction fuel generalizing scene cpu conversation with
  | zero =>
    unfold loop at looped
    split at looped
    next terminal =>
      cases looped
      exact ⟨scene, .stopped (shown.status_eq ▸ terminal), shown⟩
    next => cases looped
  | succ fuel ih =>
    unfold loop at looped
    split at looped
    next terminal =>
      cases looped
      exact ⟨scene, .stopped (shown.status_eq ▸ terminal), shown⟩
    next going =>
      obtain ⟨last, ends, shown'⟩ := ih (step_shows shown) looped
      exact ⟨last, .cycle (shown.status_eq ▸ going) ends, shown'⟩

/-- The scene with which a run begins. -/
def firstScene (cpu : Cpu) (console : Console) : Scene :=
  ⟨⟨.running, cpu.state⟩, console⟩

/-- A processor at a console begins with the first scene. -/
theorem start_after (ready : cpu.status = .ready) (console : Console) :
    (cpu.attached true true).start.After
      ((cpu.attached true true).Shows (cpu.firstScene console)) ⟨console, []⟩ := by
  have ready' : (cpu.attached true true).status = .ready := ready
  rw [start, if_pos ready']
  exact ⟨rfl, rfl, rfl, .inl rfl, .inl rfl⟩

theorem run_eq_some_iff {fuel : Nat} {cpu' : Cpu} {interrupted : Bool} {console : Console} :
    (cpu.attached true true).run Conversation.host (fun _ => false) fuel (.new console) =
        some (interrupted, cpu', conversation) ↔
      ∃ stopped,
        loop Conversation.host (fun _ => false) fuel
            ((cpu.attached true true).start.run Conversation.host (.new console)).1
            ((cpu.attached true true).start.run Conversation.host (.new console)).2 =
          some (interrupted, stopped, conversation) ∧ stopped.detached = cpu' := by
  unfold run
  rw [Option.map_eq_some_iff]
  constructor
  · rintro ⟨⟨interrupted', stopped, conversation'⟩, looped, same⟩
    cases same
    exact ⟨stopped, looped, rfl⟩
  · rintro ⟨stopped, looped, rfl⟩
    exact ⟨(interrupted, stopped, conversation), looped, rfl⟩

/-- A run in which the console handles every event at once goes from scene to scene, and it ends
exactly if the cycles do. -/
theorem run_ends_iff (ready : cpu.status = .ready) (console : Console) (last : Scene) :
    Scene.Ends cpu.architecture cpu.program (cpu.firstScene console) last ↔
      ∃ fuel interrupted cpu' conversation,
        (cpu.attached true true).run Conversation.host (fun _ => false) fuel (.new console) =
            some (interrupted, cpu', conversation) ∧
          last = ⟨cpu'.core, conversation.console⟩ := by
  let started := (cpu.attached true true).start.run Conversation.host (.new console)
  have shown : (cpu.attached true true).Shows (cpu.firstScene console) started.1 started.2.talk :=
    (start_after ready console).run_host
  constructor
  · intro ends
    have ends' : Scene.Ends (cpu.attached true true).architecture (cpu.attached true true).program
        (cpu.firstScene console) last := ends
    obtain ⟨fuel, stopped, conversation, looped, shown'⟩ := exists_loop ends' shown
    exact ⟨fuel, false, _, conversation, run_eq_some_iff.mpr ⟨stopped, looped, rfl⟩,
      shown'.last_eq.symm⟩
  · rintro ⟨fuel, interrupted, cpu', conversation, returned, rfl⟩
    obtain ⟨stopped, looped, rfl⟩ := run_eq_some_iff.mp returned
    obtain ⟨last, ends, shown'⟩ := ends_of_loop shown looped
    rw [← shown'.last_eq] at ends
    exact ends

end Cpu
end Minicomputer
