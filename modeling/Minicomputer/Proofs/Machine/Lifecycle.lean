import Minicomputer.Proofs.Machine.Faults

/-!
# The life of a processor

What is true of a processor at any time, whatever has been done with it: programs loaded, single
steps, runs, inspections, attachments, in any order and any number.

* `Core.Sound` -- how status, state and the number of completed instructions belong together;
* `Core.Sound.cycle` -- one cycle keeps it;
* `Lifecycle.Call`, `Lifecycle.Leads` -- the calls, and what they lead to;
* `lifecycle_sound` -- every sequence of calls keeps it, and no call changes a processor that has
  stopped.

Who answers the processor during a call is part of the call, so nothing is assumed about it.
-/

namespace Minicomputer

namespace Core

/-! ## Completed instructions -/

/-- A cycle that begins here completes an instruction. -/
def Completes (architecture : Architecture) (program : Program) (core : Core) : Prop :=
  ¬ core.status.isTerminal ∧ core.state.pc < program.size ∧
    ∀ fault, ¬ Raises architecture program core.state fault

/-- Execution has nothing left to do: it is at a `HLT` or outside the program. -/
def Ended (architecture : Architecture) (program : Program) (state : MachineState) : Prop :=
  program.size ≤ state.pc ∨
    ∃ instruction, program[state.pc]? = some instruction ∧
      architecture.operation? instruction.opcode = some .hlt

section

variable {architecture : Architecture} {program : Program} {core : Core}

theorem completes_iff_of_operation {instruction : Instruction} {operation : Operation}
    (going : ¬ core.status.isTerminal) (fetched : program[core.state.pc]? = some instruction)
    (decoded : architecture.operation? instruction.opcode = some operation) :
    core.Completes architecture program ↔
      (Machine.execute operation instruction core.state).isOk = true := by
  have inside := (Array.getElem?_eq_some_iff.mp fetched).1
  simp only [Completes, going, inside, raises_iff_of_operation fetched decoded,
    ← Machine.execute_eq_error_iff]
  cases Machine.execute operation instruction core.state with
  | error fault => simp [Except.isOk, Except.toBool]
  | ok effect => simp [Except.isOk, Except.toBool]

theorem completes_iff_exists :
    core.Completes architecture program ↔
      ¬ core.status.isTerminal ∧ ∃ instruction ∈ program[core.state.pc]?,
        ∃ operation ∈ architecture.operation? instruction.opcode,
          (Machine.execute operation instruction core.state).isOk = true := by
  constructor
  · intro h
    obtain ⟨going, inside, sound⟩ := h
    have fetched : program[core.state.pc]? = some program[core.state.pc] :=
      Array.getElem?_eq_getElem inside
    refine ⟨going, _, fetched, ?_⟩
    cases decoded : architecture.operation? program[core.state.pc].opcode with
    | none => exact absurd ((raises_iff_of_unknown fetched decoded).mpr rfl) (sound _)
    | some operation =>
      exact ⟨operation, rfl,
        (completes_iff_of_operation going fetched decoded).mp ⟨going, inside, sound⟩⟩
  · rintro ⟨going, instruction, fetched, operation, decoded, executes⟩
    exact (completes_iff_of_operation going fetched decoded).mpr executes

end

instance (architecture : Architecture) (program : Program) (core : Core) :
    Decidable (core.Completes architecture program) :=
  decidable_of_iff _ completes_iff_exists.symm

/-! ## One cycle -/

/-- How status and state belong together after so many completed instructions, on a machine with
that many words of memory. -/
structure Sound (architecture : Architecture) (program : Program) (memoryWords completed : Nat)
    (core : Core) : Prop where
  ready : core.status = .ready → core.state = .initial memoryWords
  halted_iff : core.state.flags.halted = true ↔ core.status = .halted
  ended : core.status = .halted → Ended architecture program core.state
  raises : ∀ fault, core.status = .faulted fault → Raises architecture program core.state fault
  cycles : core.state.cycles = completed

/-- No operation touches the flag or the counter by itself. -/
theorem kept_of_execute {operation : Operation} {instruction : Instruction}
    {state after : MachineState} {target : Nat}
    (h : Machine.execute operation instruction state = .ok (.proceed after target)) :
    after.flags.halted = state.flags.halted ∧ after.cycles = state.cycles := by
  cases operation
  case ld =>
    simp only [Machine.execute] at h
    split at h
    · cases h
    · cases h
      exact ⟨rfl, rfl⟩
  case st =>
    simp only [Machine.execute] at h
    split at h
    · cases h
    · cases h
  case div | mod | call =>
    simp only [Machine.execute] at h
    split at h
    · cases h <;> exact ⟨rfl, rfl⟩
    · cases h <;> exact ⟨rfl, rfl⟩
  all_goals
    simp only [Machine.execute] at h
    cases h <;> exact ⟨rfl, rfl⟩

/-- An instruction that is completed counts, and only `HLT` stops the processor. -/
theorem complete_kept {operation : Operation} {instruction : Instruction} {state : MachineState}
    {effect : Machine.Effect state.memory.size}
    (h : Machine.execute operation instruction state = .ok effect) (value : UInt16) :
    (complete value state effect).state.cycles = state.cycles + 1 ∧
      ((complete value state effect).status = .running ∧
          (complete value state effect).state.flags.halted = state.flags.halted ∨
        operation = .hlt ∧ (complete value state effect).status = .halted ∧
          (complete value state effect).state.flags.halted = true ∧
          (complete value state effect).state.pc = state.pc) := by
  cases effect with
  | proceed after target =>
    have kept := kept_of_execute h
    exact ⟨congrArg (· + 1) kept.2, .inl ⟨rfl, kept.1⟩⟩
  | store address stored => exact ⟨rfl, .inl ⟨rfl, rfl⟩⟩
  | halt => exact ⟨rfl, .inr ⟨Machine.eq_of_operation? rfl h, rfl, rfl, rfl⟩⟩
  | output shown => exact ⟨rfl, .inl ⟨rfl, rfl⟩⟩
  | input dest => exact ⟨rfl, .inl ⟨rfl, rfl⟩⟩

namespace Sound

variable {architecture : Architecture} {program : Program} {memoryWords completed : Nat}
  {core : Core}

theorem not_halted (h : core.Sound architecture program memoryWords completed)
    (going : ¬ core.status.isTerminal) : core.state.flags.halted = false := by
  rw [Bool.eq_false_iff]
  intro flag
  rw [h.halted_iff.mp flag] at going
  exact going rfl

theorem of_fault {fault : Fault} (h : core.Sound architecture program memoryWords completed)
    (going : ¬ core.status.isTerminal) (raises : Raises architecture program core.state fault) :
    Sound architecture program memoryWords completed ⟨.faulted fault, core.state⟩ := by
  have clear := h.not_halted going
  constructor
  · intro status
    cases status
  · simp [clear]
  · intro status
    cases status
  · intro fault' status
    cases status
    exact raises
  · exact h.cycles

/-- A cycle keeps what belongs together, and counts if it completes an instruction. -/
theorem cycle (h : core.Sound architecture program memoryWords completed) (value : UInt16) :
    (core.cycle architecture program value).Sound architecture program memoryWords
      (completed + if core.Completes architecture program then 1 else 0) := by
  by_cases terminal : core.status.isTerminal
  · have idle : ¬ core.Completes architecture program := fun completes => completes.1 terminal
    rw [cycle_of_terminal terminal, if_neg idle]
    exact h
  · cases fetched : program[core.state.pc]? with
    | none =>
      have outside : program.size ≤ core.state.pc := Array.getElem?_eq_none_iff.mp fetched
      have idle : ¬ core.Completes architecture program := by
        intro completes
        exact absurd completes.2.1 (Nat.not_lt.mpr outside)
      rw [cycle_of_pastEnd terminal fetched, if_neg idle]
      constructor
      · intro status
        cases status
      · simp [MachineState.halt]
      · intro _
        exact .inl outside
      · intro fault status
        cases status
      · exact h.cycles
    | some instruction =>
      cases decoded : architecture.operation? instruction.opcode with
      | none =>
        have raises : Raises architecture program core.state
            (.unknownOpcode core.state.pc instruction.opcode) :=
          (raises_iff_of_unknown fetched decoded).mpr rfl
        have idle : ¬ core.Completes architecture program :=
          fun completes => completes.2.2 _ raises
        rw [cycle_of_unknown terminal fetched decoded, if_neg idle]
        exact h.of_fault terminal raises
      | some operation =>
        have counts := completes_iff_of_operation terminal fetched decoded
        rw [cycle_of_operation terminal fetched decoded, perform]
        cases executed : Machine.execute operation instruction core.state with
        | error fault =>
          have raises : Raises architecture program core.state fault :=
            .refused fetched decoded (Machine.refuses_of_execute executed)
          have idle : ¬ core.Completes architecture program :=
            fun completes => completes.2.2 _ raises
          rw [if_neg idle]
          exact h.of_fault terminal raises
        | ok effect =>
          rw [executed] at counts
          rw [if_pos (counts.mpr rfl)]
          dsimp only
          have kept := complete_kept executed value
          have counted := kept.1.trans (congrArg (· + 1) h.cycles)
          rcases kept.2 with ⟨status, flag⟩ | ⟨rfl, status, flag, pc⟩
          · rw [h.not_halted terminal] at flag
            constructor <;> simp [status, flag, counted]
          · constructor
            · simp [status]
            · simp [status, flag]
            · intro _
              rw [Ended, pc]
              exact .inr ⟨instruction, fetched, decoded⟩
            · simp [status]
            · exact counted

end Sound
end Core

/-! ## Calls -/

namespace Cpu

/-- A cycle that begins with this processor completes an instruction. -/
def Completes (cpu : Cpu) : Prop :=
  cpu.core.Completes cpu.architecture cpu.program

instance : DecidablePred Completes :=
  fun cpu => inferInstanceAs (Decidable (cpu.core.Completes cpu.architecture cpu.program))

/-- The processors with which the cycles of `loop` begin. -/
def visited {σ : Type} (host : Host σ) (interruptRequested : σ → Bool) :
    Nat → Cpu → σ → List Cpu
  | fuel, cpu, world =>
    if cpu.status.isTerminal then []
    else if interruptRequested world then []
    else match fuel with
      | 0 => []
      | fuel + 1 =>
        match cpu.step.run host world with
        | (next, world) => cpu :: visited host interruptRequested fuel next world

end Cpu

namespace Lifecycle

/-- A processor in use, and whether an interrupt is attached to it. -/
structure Rig where
  cpu : Cpu
  interruptible : Bool

/-- A new processor with nothing attached. -/
def Rig.new (architecture : Architecture) (config : Config) : Rig :=
  ⟨.new architecture config, false⟩

/-- Something that is done with a processor.  Steps and runs come with whoever answers during the
call, and a run with the moments at which an interrupt is requested. -/
inductive Call : Type 1 where
  | load (program : Program)
  | step {σ : Type} (host : Host σ) (world : σ)
  | run {σ : Type} (host : Host σ) (requested : σ → Bool) (world : σ)
  | dumpCore
  | snapshot
  | attachOutput
  | attachInput
  | attachInterrupt

/-- What a call that comes back has done: the processors with which its cycles began, and what it
leaves behind. -/
inductive Does : Call → Rig → List Cpu → Rig → Prop
  | load (program : Program) (rig : Rig) :
      Does (.load program) rig [] { rig with cpu := (rig.cpu.load program).getD rig.cpu }
  | step {σ : Type} (host : Host σ) (world : σ) (rig : Rig) :
      Does (.step host world) rig [rig.cpu] { rig with cpu := (rig.cpu.step.run host world).1 }
  | run {σ : Type} (host : Host σ) (requested : σ → Bool) (world : σ) (rig : Rig) {fuel : Nat}
      {interrupted : Bool} {cpu : Cpu} {world' : σ}
      (returned : rig.cpu.run host (fun world => rig.interruptible && requested world) fuel world =
        some (interrupted, cpu, world')) :
      Does (.run host requested world) rig
        (Cpu.visited host (fun world => rig.interruptible && requested world) fuel
          (rig.cpu.start.run host world).1 (rig.cpu.start.run host world).2)
        { rig with cpu }
  | dumpCore (rig : Rig) : Does .dumpCore rig [] rig
  | snapshot (rig : Rig) : Does .snapshot rig [] rig
  | attachOutput (rig : Rig) :
      Does .attachOutput rig [] { rig with cpu := { rig.cpu with observed := true } }
  | attachInput (rig : Rig) :
      Does .attachInput rig [] { rig with cpu := { rig.cpu with supplied := true } }
  | attachInterrupt (rig : Rig) : Does .attachInterrupt rig [] { rig with interruptible := true }

/-- What a sequence of calls has done. -/
inductive Leads : List Call → Rig → List Cpu → Rig → Prop
  | nil (rig : Rig) : Leads [] rig [] rig
  | cons {call : Call} {calls : List Call} {rig next last : Rig} {now later : List Cpu}
      (first : Does call rig now next) (rest : Leads calls next later last) :
      Leads (call :: calls) rig (now ++ later) last

/-! ## What calls keep -/

/-- A processor of that table and size after so many completed instructions. -/
structure Kept (architecture : Architecture) (config : Config) (completed : Nat) (cpu : Cpu) :
    Prop where
  table : cpu.architecture = architecture
  sound : cpu.core.Sound architecture cpu.program (min config.memoryWords Config.maxMemoryWords)
    completed

section

variable {architecture : Architecture} {config : Config} {completed : Nat} {cpu : Cpu}

theorem kept_new : Kept architecture config 0 (.new architecture config) := by
  refine ⟨rfl, ?_⟩
  constructor
  · intro _
    rfl
  · simp [Cpu.core, Cpu.new, MachineState.initial, Flags.clear]
  · intro status
    cases status
  · intro fault status
    cases status
  · rfl

theorem Kept.load (h : Kept architecture config completed cpu) (program : Program) :
    Kept architecture config completed ((cpu.load program).getD cpu) := by
  by_cases ready : cpu.status = .ready
  · have initial := h.sound.ready ready
    have counted := h.sound.cycles
    rw [Cpu.load, if_pos ready]
    -- The program counter was zero before.
    have same : ({ cpu.state with pc := 0 } : MachineState) = cpu.state := by
      rw [show cpu.state = _ from initial]
      rfl
    refine ⟨h.table, ?_⟩
    constructor
    · intro _
      exact same.trans initial
    · exact h.sound.halted_iff
    · intro halted
      cases ready.symm.trans halted
    · intro fault faulted
      cases ready.symm.trans faulted
    · exact counted
  · rw [Cpu.load, if_neg ready]
    exact h

theorem Kept.step {σ : Type} (h : Kept architecture config completed cpu) (host : Host σ)
    (world : σ) :
    Kept architecture config (completed + if cpu.Completes then 1 else 0)
      (cpu.step.run host world).1 := by
  obtain ⟨rfl, sound⟩ := h
  have left := Cpu.step_run_program host cpu world
  refine ⟨left.1, ?_⟩
  rw [Cpu.step_run_core, left.2]
  exact sound.cycle _

theorem Kept.start {σ : Type} (h : Kept architecture config completed cpu) (host : Host σ)
    (world : σ) : Kept architecture config completed (cpu.start.run host world).1 := by
  unfold Cpu.start
  by_cases ready : cpu.status = .ready
  · rw [if_pos ready]
    have clear := h.sound.not_halted (by
      rw [show cpu.core.status = .ready from ready]
      exact Bool.false_ne_true)
    have counted := h.sound.cycles
    refine ⟨h.table, ?_⟩
    constructor
    · intro status
      cases status
    · constructor
      · intro flag
        exact absurd flag (Bool.eq_false_iff.mp clear)
      · intro status
        cases status
    · intro status
      cases status
    · intro fault status
      cases status
    · exact counted
  · rw [if_neg ready]
    exact h

theorem Kept.loop {σ : Type} {host : Host σ} {interruptRequested : σ → Bool} {fuel : Nat}
    {world world' : σ} {interrupted : Bool} {last : Cpu}
    (h : Kept architecture config completed cpu)
    (returned : Cpu.loop host interruptRequested fuel cpu world =
      some (interrupted, last, world')) :
    Kept architecture config
      (completed + (cpu.visited host interruptRequested fuel world).countP (·.Completes)) last := by
  induction fuel generalizing cpu world completed with
  | zero =>
    unfold Cpu.loop at returned
    unfold Cpu.visited
    by_cases terminal : cpu.status.isTerminal
    · rw [if_pos terminal] at returned ⊢
      cases returned
      exact h
    · rw [if_neg terminal] at returned ⊢
      by_cases asked : interruptRequested world
      · rw [if_pos asked] at returned ⊢
        cases returned
        exact h
      · rw [if_neg asked] at returned
        cases returned
  | succ fuel ih =>
    unfold Cpu.loop at returned
    unfold Cpu.visited
    by_cases terminal : cpu.status.isTerminal
    · rw [if_pos terminal] at returned ⊢
      cases returned
      exact h
    · rw [if_neg terminal] at returned ⊢
      by_cases asked : interruptRequested world
      · rw [if_pos asked] at returned ⊢
        cases returned
        exact h
      · rw [if_neg asked] at returned ⊢
        have left := ih (h.step host world) returned
        rw [Nat.add_assoc] at left
        simpa [List.countP_cons, Nat.add_comm] using left

theorem Does.kept {call : Call} {rig next : Rig} {cycles : List Cpu}
    (did : Does call rig cycles next) (h : Kept architecture config completed rig.cpu) :
    Kept architecture config (completed + cycles.countP (·.Completes)) next.cpu := by
  cases did with
  | load program => exact h.load program
  | step host world => simpa [List.countP_cons] using h.step host world
  | run host requested world _ returned =>
    obtain ⟨⟨interrupted', last, world''⟩, looped, same⟩ := Option.map_eq_some_iff.mp returned
    cases same
    -- Letting observer and supplier go changes nothing that is looked at here.
    have left := (h.start host world).loop looped
    exact ⟨left.table, left.sound⟩
  | dumpCore => exact h
  | snapshot => exact h
  | attachOutput => exact ⟨h.table, h.sound⟩
  | attachInput => exact ⟨h.table, h.sound⟩
  | attachInterrupt => exact h

theorem Leads.kept {calls : List Call} {rig last : Rig} {cycles : List Cpu}
    (led : Leads calls rig cycles last) (h : Kept architecture config completed rig.cpu) :
    Kept architecture config (completed + cycles.countP (·.Completes)) last.cpu := by
  induction led generalizing completed with
  | nil => exact h
  | cons first rest ih =>
    rw [List.countP_append, ← Nat.add_assoc]
    exact ih (first.kept h)

end

/-! ## What no call changes -/

/-- A processor that has stopped stays as it is, apart from what is attached to it. -/
theorem Does.of_terminal {call : Call} {rig next : Rig} {cycles : List Cpu}
    (did : Does call rig cycles next) (terminal : rig.cpu.status.isTerminal) :
    next.cpu.core = rig.cpu.core ∧ next.cpu.program = rig.cpu.program := by
  have started : rig.cpu.status ≠ .ready := by
    intro ready
    rw [ready] at terminal
    cases terminal
  cases did with
  | load program =>
    rw [Cpu.load, if_neg started]
    exact ⟨rfl, rfl⟩
  | step host world =>
    rw [Cpu.step, if_pos terminal]
    exact ⟨rfl, rfl⟩
  | run host requested world _ returned =>
    obtain ⟨⟨interrupted', last, world''⟩, looped, same⟩ := Option.map_eq_some_iff.mp returned
    cases same
    rw [Cpu.start, if_neg started] at looped
    unfold Cpu.loop Dialogue.run at looped
    rw [if_pos terminal] at looped
    cases looped
    exact ⟨rfl, rfl⟩
  | dumpCore => exact ⟨rfl, rfl⟩
  | snapshot => exact ⟨rfl, rfl⟩
  | attachOutput => exact ⟨rfl, rfl⟩
  | attachInput => exact ⟨rfl, rfl⟩
  | attachInterrupt => exact ⟨rfl, rfl⟩

theorem Leads.of_terminal {calls : List Call} {rig last : Rig} {cycles : List Cpu}
    (led : Leads calls rig cycles last) (terminal : rig.cpu.status.isTerminal) :
    last.cpu.core = rig.cpu.core ∧ last.cpu.program = rig.cpu.program := by
  induction led with
  | nil => exact ⟨rfl, rfl⟩
  | cons first rest ih =>
    have now := first.of_terminal terminal
    have status := congrArg Core.status now.1
    have later := ih ((congrArg Status.isTerminal status).trans terminal)
    exact ⟨later.1.trans now.1, later.2.trans now.2⟩

theorem load_eq_none_iff {cpu : Cpu} {program : Program} :
    cpu.load program = none ↔ cpu.status ≠ .ready := by
  unfold Cpu.load
  by_cases ready : cpu.status = .ready
  · simp [ready]
  · simp [ready]

/-- A fault is raised again by the state that it has left behind. -/
theorem step_of_raises {cpu : Cpu} {fault : Fault}
    (raises : Core.Raises cpu.architecture cpu.program cpu.state fault) {σ : Type}
    (host : Host σ) (world : σ) :
    (({ cpu with status := .running } : Cpu).step.run host world).1.status = .faulted fault := by
  have stepped := Cpu.step_run_core host { cpu with status := .running } world
  refine (congrArg Core.status stepped).trans ?_
  have going : ¬ Status.running.isTerminal := Bool.false_ne_true
  exact (Core.cycle_faulted_iff going).mpr raises

/-! ## All sequences of calls -/

/-- After every sequence of calls on a new processor, status, state and program belong together and
the counter of cycles is the number of cycles that have completed an instruction.  A fault names the
program counter, which lies inside the program, and a further cycle would raise it again.  Later
calls change nothing in a processor that has stopped, and a program is loaded exactly by a processor
that is ready; otherwise loading changes nothing. -/
theorem lifecycle_sound {architecture : Architecture} {config : Config} {calls : List Call}
    {cycles : List Cpu} {rig : Rig}
    (led : Leads calls (.new architecture config) cycles rig) :
    let cpu := rig.cpu
    cpu.core.Sound architecture cpu.program (min config.memoryWords Config.maxMemoryWords)
        (cycles.countP (·.Completes)) ∧
      (∀ fault, cpu.status = .faulted fault →
        fault.pc = cpu.state.pc ∧ cpu.state.pc < cpu.program.size ∧
          ∀ (σ : Type) (host : Host σ) (world : σ),
            (({ cpu with status := .running } : Cpu).step.run host world).1.status =
              .faulted fault) ∧
      (cpu.status.isTerminal → ∀ later cycles' rig', Leads later rig cycles' rig' →
        rig'.cpu.status = cpu.status ∧ rig'.cpu.state = cpu.state ∧
          rig'.cpu.program = cpu.program) ∧
      (∀ program, cpu.load program = none ↔ cpu.status ≠ .ready) ∧
      (cpu.status ≠ .ready → ∀ program cycles' rig', Does (.load program) rig cycles' rig' →
        rig' = rig) := by
  intro cpu
  have kept : Kept architecture config (cycles.countP (·.Completes)) cpu := by
    simpa using led.kept kept_new
  obtain ⟨table, sound⟩ := kept
  refine ⟨sound, ?_, ?_, fun program => load_eq_none_iff, ?_⟩
  · intro fault faulted
    have raises := sound.raises fault faulted
    refine ⟨raises.pc_eq, raises.pc_lt_size, ?_⟩
    intro σ host world
    exact step_of_raises (table ▸ raises) host world
  · intro terminal later cycles' rig' after
    have same := after.of_terminal terminal
    exact ⟨congrArg Core.status same.1, congrArg Core.state same.1, same.2⟩
  · intro started program cycles' rig' did
    cases did with
    | load =>
      have refused : rig.cpu.load program = none := load_eq_none_iff.mpr started
      rw [refused]
      rfl

/-- A program that is stepped through, then run until it divides by zero. -/
theorem lifecycle_sound_division :
    let calls : List Call :=
      [.load #[⟨0x11, 1, 0, 5⟩, ⟨0x24, 1, 2, 0⟩], .attachOutput, .attachInterrupt,
        .step .silent (), .dumpCore, .run .silent (fun _ => false) (), .load #[]]
    ∃ cycles rig, Leads calls (.new .standard ⟨0, 1⟩) cycles rig ∧
      rig.cpu.status = .faulted (.divideByZero 1) ∧ cycles.length = 2 ∧
        rig.cpu.core.Sound .standard rig.cpu.program 0 1 := by
  intro calls
  obtain ⟨cycles, rig, led, status, length, completed⟩ : ∃ cycles rig,
      Leads calls (.new .standard ⟨0, 1⟩) cycles rig ∧
        rig.cpu.status = .faulted (.divideByZero 1) ∧ cycles.length = 2 ∧
          cycles.countP (·.Completes) = 1 :=
    ⟨_, _, .cons (.load _ _) (.cons (.attachOutput _) (.cons (.attachInterrupt _)
      (.cons (.step _ _ _) (.cons (.dumpCore _)
        (.cons (.run _ _ _ _ (show Cpu.run _ _ 2 _ _ = some _ from rfl))
          (.cons (.load _ _) (.nil _))))))),
      by decide +kernel, by decide +kernel, by decide +kernel⟩
  have sound := (lifecycle_sound led).1
  rw [completed] at sound
  exact ⟨cycles, rig, led, status, length, sound⟩

end Lifecycle
end Minicomputer
