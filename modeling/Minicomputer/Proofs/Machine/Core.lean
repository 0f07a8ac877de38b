import Minicomputer.Cpu

/-!
# What a cycle does

`Cpu.step` is a dialogue, because somebody may watch and somebody may supply values.  Here is what
is left of a cycle when nobody is asked: a function of status and state, and of the value that is
read if the cycle reads one.  Whoever the processor is run against, this function says how status
and state go on.

* `Core.cycle` -- the function;
* `Cpu.step_run` -- what `Cpu.step` leaves behind, against any host;
* `Cpu.cycles`, `Cpu.collected`, `Cpu.valuesRead` -- so many cycles, what they yield, and the values
  that they read;
* `Host.Maintains`, `Cpu.loop_keeps` -- what a host keeps true, and what every cycle does.

What is published and noted on the way is not described here.
-/

namespace Minicomputer

/-- The part of a processor that execution changes. -/
structure Core where
  status : Status
  state : MachineState
  deriving DecidableEq, Repr

/-- The operation that asks for this, where there is only one. -/
def Machine.Effect.operation? {memoryWords : Nat} : Machine.Effect memoryWords → Option Operation
  | .proceed _ _ => none
  | .store _ _ => some .st
  | .halt => some .hlt
  | .output _ => some .output
  | .input _ => some .input

theorem Machine.eq_of_operation? {operation only : Operation} {instruction : Instruction}
    {state : MachineState} {effect : Machine.Effect state.memory.size}
    (asks : effect.operation? = some only)
    (executed : Machine.execute operation instruction state = .ok effect) : operation = only := by
  cases operation
  case ld | st | div | mod =>
    simp only [Machine.execute] at executed
    split at executed
    · cases executed
    · cases executed
      cases asks <;> rfl
  case call =>
    simp only [Machine.execute] at executed
    split at executed
    · cases executed
      cases asks
    · cases executed
  all_goals
    cases executed
    cases asks <;> rfl

namespace Core

/-- What is left behind by an instruction that does not fault.  The value is the one that is read,
if one is. -/
def complete (value : UInt16) (state : MachineState) : Machine.Effect state.memory.size → Core
  | .proceed after target => ⟨.running, after.complete target⟩
  | .store address stored => ⟨.running, (state.setMemory address stored).complete (state.pc + 1)⟩
  | .halt => ⟨.halted, (state.complete state.pc).halt⟩
  | .output _ => ⟨.running, state.complete (state.pc + 1)⟩
  | .input dest => ⟨.running, (state.setRegister dest value).complete (state.pc + 1)⟩

/-- What is left behind by a decoded instruction. -/
def perform (operation : Operation) (instruction : Instruction) (value : UInt16)
    (state : MachineState) : Core :=
  match Machine.execute operation instruction state with
  | .error fault => ⟨.faulted fault, state⟩
  | .ok effect => complete value state effect

/-- The value makes no difference to an operation that does not read it. -/
theorem perform_of_ne_input {operation : Operation} (other : operation ≠ .input)
    (instruction : Instruction) (value value' : UInt16) (state : MachineState) :
    perform operation instruction value state = perform operation instruction value' state := by
  unfold perform
  cases done : Machine.execute operation instruction state with
  | error fault => rfl
  | ok effect =>
    cases effect with
    | proceed after target => rfl
    | store address stored => rfl
    | halt => rfl
    | output shown => rfl
    | input dest => exact absurd (Machine.eq_of_operation? rfl done) other

theorem perform_of_proceed {operation : Operation} {instruction : Instruction}
    {state after : MachineState} {target : Nat}
    (executed : Machine.execute operation instruction state = .ok (.proceed after target))
    (value : UInt16) :
    perform operation instruction value state = ⟨.running, after.complete target⟩ := by
  unfold perform
  rw [executed]
  rfl

/-- What a cycle leaves behind. -/
def cycle (architecture : Architecture) (program : Program) (value : UInt16) (core : Core) : Core :=
  if core.status.isTerminal then core
  else match program[core.state.pc]? with
    | none => ⟨.halted, core.state.halt⟩
    | some instruction =>
      match architecture.operation? instruction.opcode with
      | none => ⟨.faulted (.unknownOpcode core.state.pc instruction.opcode), core.state⟩
      | some operation => perform operation instruction value core.state

section

variable {architecture : Architecture} {program : Program} {value : UInt16} {core : Core}

theorem cycle_of_terminal (h : core.status.isTerminal) :
    core.cycle architecture program value = core :=
  if_pos h

theorem cycle_of_pastEnd (going : ¬ core.status.isTerminal)
    (fetched : program[core.state.pc]? = none) :
    core.cycle architecture program value = ⟨.halted, core.state.halt⟩ := by
  rw [cycle, if_neg going, fetched]

theorem cycle_of_unknown {instruction : Instruction} (going : ¬ core.status.isTerminal)
    (fetched : program[core.state.pc]? = some instruction)
    (decoded : architecture.operation? instruction.opcode = none) :
    core.cycle architecture program value =
      ⟨.faulted (.unknownOpcode core.state.pc instruction.opcode), core.state⟩ := by
  rw [cycle, if_neg going, fetched]
  dsimp only
  rw [decoded]

theorem cycle_of_operation {instruction : Instruction} {operation : Operation}
    (going : ¬ core.status.isTerminal) (fetched : program[core.state.pc]? = some instruction)
    (decoded : architecture.operation? instruction.opcode = some operation) :
    core.cycle architecture program value = perform operation instruction value core.state := by
  rw [cycle, if_neg going, fetched]
  dsimp only
  rw [decoded]

end

end Core

namespace Cpu

def core (cpu : Cpu) : Core :=
  ⟨cpu.status, cpu.state⟩

/-- The processor with or without somebody who is told about events, and somebody who supplies
values. -/
def attached (cpu : Cpu) (observed supplied : Bool) : Cpu :=
  { cpu with observed, supplied }

/-- The processor with nobody around it. -/
def detached (cpu : Cpu) : Cpu :=
  cpu.attached false false

def withCore (cpu : Cpu) (core : Core) : Cpu :=
  { cpu with status := core.status, state := core.state }

theorem core_of_detached {cpu cpu' : Cpu} (h : cpu'.detached = cpu.detached) :
    cpu'.status = cpu.status ∧ cpu'.state = cpu.state := by
  have same : cpu'.detached.core = cpu.detached.core := congrArg core h
  exact ⟨congrArg Core.status same, congrArg Core.state same⟩

variable {σ : Type} (host : Host σ)

/-! ## Turns to the outside change nothing -/

theorem publish_run (cpu : Cpu) (event : Event) (world : σ) :
    ((cpu.publish event).run host world).1.detached = cpu.detached := by
  unfold publish
  split
  · rw [Dialogue.run]
    rcases host.publish event world with ⟨received, world'⟩
    cases received with
    | true => rfl
    | false => rfl
  · rfl

theorem halt_run (cpu : Cpu) (world : σ) :
    (cpu.halt.run host world).1.detached = cpu.detached.withCore ⟨.halted, cpu.state.halt⟩ :=
  publish_run host ..

theorem fail_run (cpu : Cpu) (fault : Fault) (world : σ) :
    ((cpu.fail fault).run host world).1.detached =
      cpu.detached.withCore ⟨.faulted fault, cpu.state⟩ :=
  publish_run host ..

theorem complete_run (cpu : Cpu) (target : Nat) (world : σ) :
    ((cpu.complete target).run host world).1.detached =
      cpu.detached.withCore ⟨cpu.status, cpu.state.complete target⟩ := by
  unfold complete
  dsimp only
  split
  · exact publish_run host ..
  · rfl

theorem emit_run (cpu : Cpu) (value : UInt16) (world : σ) :
    ((cpu.emit value).run host world).1.detached = cpu.detached := by
  unfold emit
  split
  · exact publish_run host ..
  · rfl

theorem read_run (cpu : Cpu) (world : σ) :
    (cpu.read.run host world).1.2.detached = cpu.detached := by
  unfold read
  split
  · rw [Dialogue.run_bind, Dialogue.run]
    have asked := publish_run host cpu .inputRequested world
    rcases host.receive _ with ⟨_ | value, world'⟩
    · exact asked
    · exact asked
  · rfl

/-! ## One cycle -/

/-- What the next cycle executes, unless it is behind the end of the program or not in the table. -/
def upcoming? (cpu : Cpu) : Option (Operation × Instruction) :=
  cpu.program[cpu.state.pc]?.bind fun instruction =>
    (cpu.architecture.operation? instruction.opcode).map fun operation => (operation, instruction)

section

variable {cpu : Cpu}

theorem upcoming?_of_pastEnd (fetched : cpu.program[cpu.state.pc]? = none) :
    cpu.upcoming? = none := by
  rw [upcoming?, fetched]
  rfl

theorem upcoming?_of_unknown {instruction : Instruction}
    (fetched : cpu.program[cpu.state.pc]? = some instruction)
    (decoded : cpu.architecture.operation? instruction.opcode = none) : cpu.upcoming? = none := by
  rw [upcoming?, fetched, Option.bind_some, decoded]
  rfl

theorem upcoming?_of_operation {instruction : Instruction} {operation : Operation}
    (fetched : cpu.program[cpu.state.pc]? = some instruction)
    (decoded : cpu.architecture.operation? instruction.opcode = some operation) :
    cpu.upcoming? = some (operation, instruction) := by
  rw [upcoming?, fetched, Option.bind_some, decoded]
  rfl

theorem upcoming?_eq_some_iff {operation : Operation} {instruction : Instruction} :
    cpu.upcoming? = some (operation, instruction) ↔
      cpu.program[cpu.state.pc]? = some instruction ∧
        cpu.architecture.operation? instruction.opcode = some operation := by
  constructor
  · intro upcoming
    obtain ⟨instruction', fetched, mapped⟩ := Option.bind_eq_some_iff.mp upcoming
    obtain ⟨operation', decoded, same⟩ := Option.map_eq_some_iff.mp mapped
    cases same
    exact ⟨fetched, decoded⟩
  · rintro ⟨fetched, decoded⟩
    exact upcoming?_of_operation fetched decoded

end

/-- The value that a cycle reads, if it reads one. -/
def valueRead? (cpu : Cpu) (world : σ) : Option UInt16 :=
  if cpu.status.isTerminal then none
  else match cpu.program[cpu.state.pc]? with
    | none => none
    | some instruction =>
      if cpu.architecture.operation? instruction.opcode = some .input then
        let noted := host.note (.executing cpu.state.pc instruction) world
        some (({ cpu with status := .running } : Cpu).read.run host noted).1.1
      else none

theorem valueRead?_of_terminal {cpu : Cpu} (h : cpu.status.isTerminal) (world : σ) :
    cpu.valueRead? host world = none :=
  if_pos h

theorem valueRead?_of_pastEnd {cpu : Cpu} (fetched : cpu.program[cpu.state.pc]? = none)
    (world : σ) : cpu.valueRead? host world = none := by
  rw [valueRead?, fetched]
  exact ite_self none

/-- Only `IN` reads. -/
theorem valueRead?_of_ne_input {cpu : Cpu} {instruction : Instruction}
    (fetched : cpu.program[cpu.state.pc]? = some instruction)
    (decoded : cpu.architecture.operation? instruction.opcode ≠ some .input) (world : σ) :
    cpu.valueRead? host world = none := by
  rw [valueRead?, fetched]
  dsimp only
  rw [if_neg decoded]
  exact ite_self none

theorem valueRead?_of_input {cpu : Cpu} {instruction : Instruction}
    (going : ¬ cpu.status.isTerminal) (fetched : cpu.program[cpu.state.pc]? = some instruction)
    (decoded : cpu.architecture.operation? instruction.opcode = some .input) (world : σ) :
    cpu.valueRead? host world =
      some (({ cpu with status := .running } : Cpu).read.run host
        (host.note (.executing cpu.state.pc instruction) world)).1.1 := by
  rw [valueRead?, if_neg going, fetched]
  exact if_pos decoded

theorem perform_run (cpu : Cpu) (running : cpu.status = .running) (operation : Operation)
    (instruction : Instruction) (world : σ) :
    ((cpu.perform operation instruction).run host world).1.detached =
      cpu.detached.withCore
        (Core.perform operation instruction (cpu.read.run host world).1.1 cpu.state) := by
  unfold perform Core.perform
  dsimp only
  cases Machine.execute operation instruction cpu.state with
  | error fault => exact fail_run host ..
  | ok effect =>
    cases effect with
    | proceed state target =>
      rw [complete_run]
      simp only [Core.complete, running]
      rfl
    | store address value =>
      rw [complete_run]
      simp only [Core.complete, running]
      rfl
    | halt => exact halt_run host ..
    | output value =>
      -- Telling somebody about the value has left status and state as they were.
      rw [Dialogue.run_bind, complete_run]
      have emitted := emit_run host cpu value world
      obtain ⟨status, state⟩ := core_of_detached emitted
      rw [emitted, status, state, running]
      rfl
    | input dest =>
      -- So has asking for the value, and then it is in its register.
      rw [Dialogue.run_bind, complete_run]
      have received := read_run host cpu world
      obtain ⟨status, state⟩ := core_of_detached received
      have kept : ({ (cpu.read.run host world).1.2 with
          state := (cpu.read.run host world).1.2.state.setRegister dest
            (cpu.read.run host world).1.1 } : Cpu).detached =
          cpu.detached.withCore
            ⟨cpu.status, cpu.state.setRegister dest (cpu.read.run host world).1.1⟩ := by
        rw [← received, ← status, ← state]
        rfl
      dsimp only
      rw [kept, status, state, running]
      rfl

theorem step_run (cpu : Cpu) (world : σ) :
    (cpu.step.run host world).1.detached =
      cpu.detached.withCore (cpu.core.cycle cpu.architecture cpu.program
        ((cpu.valueRead? host world).getD 0)) := by
  unfold step
  by_cases terminal : cpu.status.isTerminal
  · rw [if_pos terminal, Core.cycle_of_terminal terminal]
    rfl
  · have going : ¬ cpu.core.status.isTerminal := terminal
    rw [if_neg terminal]
    dsimp only
    cases fetched : cpu.program[cpu.state.pc]? with
    | none =>
      rw [Core.cycle_of_pastEnd going fetched]
      exact halt_run host ..
    | some instruction =>
      dsimp only
      cases decoded : cpu.architecture.operation? instruction.opcode with
      | none =>
        rw [Core.cycle_of_unknown going fetched decoded]
        exact fail_run host ..
      | some operation =>
        dsimp only
        rw [Core.cycle_of_operation going fetched decoded, Dialogue.run, perform_run host _ rfl]
        -- The value that was read goes in, and where none was read any will do.
        by_cases reads : operation = .input
        · subst reads
          rw [valueRead?_of_input host terminal fetched decoded]
          rfl
        · exact congrArg _ (Core.perform_of_ne_input reads ..)

theorem step_run_core (cpu : Cpu) (world : σ) :
    (cpu.step.run host world).1.core =
      cpu.core.cycle cpu.architecture cpu.program ((cpu.valueRead? host world).getD 0) :=
  congrArg core (step_run host cpu world)

/-- An operation that goes on in a state leaves that state. -/
theorem step_of_proceed {cpu : Cpu} {operation : Operation} {instruction : Instruction}
    {after : MachineState} {target : Nat} (world : σ) (going : ¬ cpu.status.isTerminal)
    (upcoming : cpu.upcoming? = some (operation, instruction))
    (executed : Machine.execute operation instruction cpu.state = .ok (.proceed after target)) :
    (cpu.step.run host world).1.core = ⟨.running, after.complete target⟩ := by
  obtain ⟨fetched, decoded⟩ := upcoming?_eq_some_iff.mp upcoming
  rw [step_run_core, Core.cycle_of_operation going fetched decoded]
  exact Core.perform_of_proceed executed _

/-- The table and the program stay as they are. -/
theorem step_run_program (cpu : Cpu) (world : σ) :
    (cpu.step.run host world).1.architecture = cpu.architecture ∧
      (cpu.step.run host world).1.program = cpu.program := by
  have left := step_run host cpu world
  have architecture := congrArg architecture left
  have program := congrArg program left
  exact ⟨architecture, program⟩

/-! ## Many cycles -/

/-- So many cycles, whatever becomes of the processor. -/
def cycles : Nat → Cpu → σ → Cpu × σ
  | 0, cpu, world => (cpu, world)
  | n + 1, cpu, world => cycles n (cpu.step.run host world).1 (cpu.step.run host world).2

/-- What so many cycles yield, in this order, if every cycle yields one thing or nothing. -/
def collected {β : Type} (yield? : Cpu → σ → Option β) : Nat → Cpu → σ → List β
  | 0, _, _ => []
  | n + 1, cpu, world =>
    (yield? cpu world).toList ++
      collected yield? n (cpu.step.run host world).1 (cpu.step.run host world).2

/-- The values that so many cycles read. -/
def valuesRead : Nat → Cpu → σ → List UInt16 :=
  collected host (valueRead? host)

end Cpu

/-! ## A supplier who is never silent -/

/-- A host that receives every event and answers the reads with the values of a sequence, the next
of which is its state. -/
def Host.answering (input : Nat → UInt16) : Host Nat where
  note _ next := next
  publish _ next := (true, next)
  receive next := (some (input next), next + 1)

namespace Cpu

variable (input : Nat → UInt16)

theorem publish_run_answering (cpu : Cpu) (event : Event) (next : Nat) :
    (cpu.publish event).run (.answering input) next = (cpu, next) := by
  unfold publish
  split
  · rfl
  · rfl

theorem complete_run_answering (cpu : Cpu) (target next : Nat) :
    (cpu.complete target).run (.answering input) next =
      ({ cpu with state := cpu.state.complete target }, next) := by
  unfold complete
  dsimp only
  split
  · exact publish_run_answering input ..
  · rfl

theorem emit_run_answering (cpu : Cpu) (value : UInt16) (next : Nat) :
    (cpu.emit value).run (.answering input) next = (cpu, next) := by
  unfold emit
  split
  · exact publish_run_answering input ..
  · rfl

theorem read_run_answering {cpu : Cpu} (supplied : cpu.supplied = true) (next : Nat) :
    cpu.read.run (.answering input) next = ((input next, cpu), next + 1) := by
  unfold read
  rw [if_pos supplied, Dialogue.run_bind, publish_run_answering]
  rfl

theorem perform_run_answering {cpu : Cpu} (supplied : cpu.supplied = true)
    (operation : Operation) (instruction : Instruction) (next : Nat) :
    ((cpu.perform operation instruction).run (.answering input) next).1.supplied = true ∧
      ((cpu.perform operation instruction).run (.answering input) next).2 =
        if operation = .input then next + 1 else next := by
  by_cases reads : operation = .input
  · subst reads
    have executed : Machine.execute .input instruction cpu.state = .ok (.input instruction.dest) :=
      rfl
    unfold perform
    rw [executed, if_pos rfl]
    dsimp only
    rw [Dialogue.run_bind, read_run_answering input supplied, complete_run_answering]
    exact ⟨supplied, rfl⟩
  · rw [if_neg reads]
    unfold perform
    dsimp only
    cases done : Machine.execute operation instruction cpu.state with
    | error fault =>
      unfold fail
      rw [Dialogue.run, publish_run_answering]
      exact ⟨supplied, rfl⟩
    | ok effect =>
      cases effect with
      | proceed state target =>
        rw [complete_run_answering]
        exact ⟨supplied, rfl⟩
      | store address value =>
        rw [complete_run_answering]
        exact ⟨supplied, rfl⟩
      | halt =>
        unfold halt
        rw [Dialogue.run, publish_run_answering]
        exact ⟨supplied, rfl⟩
      | output value =>
        rw [Dialogue.run_bind, emit_run_answering, complete_run_answering]
        exact ⟨supplied, rfl⟩
      | input dest => exact absurd (Machine.eq_of_operation? rfl done) reads

/-- The supplier stays, and its state counts the values that have been read. -/
theorem step_run_answering {cpu : Cpu} (supplied : cpu.supplied = true) (next : Nat) :
    (cpu.step.run (.answering input) next).1.supplied = true ∧
      (cpu.step.run (.answering input) next).2 =
        next + (cpu.valueRead? (.answering input) next).toList.length ∧
      ∀ value ∈ cpu.valueRead? (.answering input) next, value = input next := by
  unfold step
  by_cases terminal : cpu.status.isTerminal
  · rw [if_pos terminal, valueRead?_of_terminal _ terminal]
    exact ⟨supplied, rfl, by simp⟩
  · rw [if_neg terminal]
    dsimp only
    cases fetched : cpu.program[cpu.state.pc]? with
    | none =>
      unfold halt
      dsimp only
      rw [Dialogue.run, Dialogue.run, publish_run_answering, valueRead?_of_pastEnd _ fetched]
      exact ⟨supplied, rfl, by simp⟩
    | some instruction =>
      dsimp only
      cases decoded : cpu.architecture.operation? instruction.opcode with
      | none =>
        unfold fail
        dsimp only
        rw [Dialogue.run, publish_run_answering,
          valueRead?_of_ne_input _ fetched (by simp [decoded])]
        exact ⟨supplied, rfl, by simp⟩
      | some operation =>
        dsimp only
        rw [Dialogue.run]
        have running : ({ cpu with status := .running } : Cpu).supplied = true := supplied
        obtain ⟨stays, counted⟩ := perform_run_answering input running operation instruction
          ((Host.answering input).note (.executing cpu.state.pc instruction) next)
        refine ⟨stays, counted.trans ?_, ?_⟩
        · by_cases reads : operation = .input
          · subst reads
            rw [if_pos rfl, valueRead?_of_input _ terminal fetched decoded]
            rfl
          · rw [if_neg reads, valueRead?_of_ne_input _ fetched (by simp [decoded, reads])]
            rfl
        · intro value read
          by_cases reads : operation = .input
          · subst reads
            rw [valueRead?_of_input _ terminal fetched decoded,
              read_run_answering input running] at read
            exact (Option.some.inj read).symm
          · rw [valueRead?_of_ne_input _ fetched (by simp [decoded, reads])] at read
            cases read

theorem valuesRead_answering {n : Nat} {cpu : Cpu} (supplied : cpu.supplied = true) {next : Nat}
    {k : Nat} {value : UInt16}
    (read : (cpu.valuesRead (.answering input) n next)[k]? = some value) :
    value = input (next + k) := by
  induction n generalizing cpu next k with
  | zero => cases read
  | succ n ih =>
    obtain ⟨stays, counted, first⟩ := step_run_answering input supplied next
    rw [valuesRead, collected] at read
    cases now : cpu.valueRead? (.answering input) next with
    | none =>
      rw [now] at read counted
      have later := ih stays read
      rw [counted] at later
      exact later
    | some value' =>
      rw [now] at read counted first
      cases k with
      | zero =>
        cases read
        exact first value rfl
      | succ k =>
        have later := ih stays read
        rw [counted] at later
        exact later.trans (congrArg input (Nat.add_right_comm next 1 k))

/-! ## Loops -/

/-- What every cycle keeps true of the processor and its host is true at the end of a loop. -/
theorem loop_keeps {σ : Type} {host : Host σ} {interruptRequested : σ → Bool}
    (holds : Cpu → σ → Prop)
    (step : ∀ cpu world, holds cpu world →
      holds (cpu.step.run host world).1 (cpu.step.run host world).2)
    {fuel : Nat} {cpu last : Cpu} {world world' : σ} {interrupted : Bool} (here : holds cpu world)
    (returned : loop host interruptRequested fuel cpu world = some (interrupted, last, world')) :
    holds last world' := by
  induction fuel generalizing cpu world with
  | zero =>
    unfold loop at returned
    split at returned
    · cases returned
      exact here
    · split at returned
      · cases returned
        exact here
      · cases returned
  | succ fuel ih =>
    unfold loop at returned
    split at returned
    · cases returned
      exact here
    · split at returned
      · cases returned
        exact here
      · exact ih (step cpu world here) returned

end Cpu

/-! ## What a host keeps true -/

/-- Whatever the host is told or asked, the condition stays true of its world. -/
structure Host.Maintains {σ : Type} (host : Host σ) (holds : σ → Prop) : Prop where
  note : ∀ n world, holds world → holds (host.note n world)
  publish : ∀ event world, holds world → holds (host.publish event world).2
  receive : ∀ world, holds world → holds (host.receive world).2

namespace Host.Maintains

variable {σ : Type} {host : Host σ} {holds : σ → Prop} {world world' : σ}
  (maintains : host.Maintains holds)

include maintains

theorem dialogue {α : Type} (dialogue : Dialogue α) (here : holds world) :
    holds (dialogue.run host world).2 := by
  induction dialogue generalizing world with
  | done value => exact here
  | note n next ih => exact ih (maintains.note n world here)
  | publish event next ih => exact ih _ (maintains.publish event world here)
  | receive next ih => exact ih _ (maintains.receive world here)

theorem run {interruptRequested : σ → Bool} {fuel : Nat} {cpu last : Cpu} {interrupted : Bool}
    (here : holds world)
    (returned : cpu.run host interruptRequested fuel world = some (interrupted, last, world')) :
    holds world' := by
  obtain ⟨⟨interrupted', last', world''⟩, looped, same⟩ := Option.map_eq_some_iff.mp returned
  cases same
  exact Cpu.loop_keeps (fun _ world => holds world)
    (fun cpu _ here => maintains.dialogue cpu.step here) (maintains.dialogue cpu.start here) looped

end Host.Maintains
end Minicomputer
