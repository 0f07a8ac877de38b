import Minicomputer.Bridge.Dialogue
import Minicomputer.CoreDump
import Minicomputer.Machine.Execute
import Minicomputer.Program

/-!
# The processor

A `Cpu` has a table of instructions, a program, a state and a status, and executes one instruction
after the other: fetch, decode, execute.

`Cpu.step` is one such cycle.  It is a dialogue, because an instruction may show a value or wait for
one, and because an observer is told about states in between.  Whether there is an observer is part
of the processor, and so is whether anybody supplies values; an observer who no longer listens and a
supplier who has closed are forgotten, and execution goes on without them.

`Cpu.run` repeats cycles until the processor has stopped or an interrupt is requested.
-/

namespace Minicomputer

/-! ## Configuration -/

/-- How large the data memory is, and after how many cycles each the observer gets a copy of the
state; 0 is never. -/
structure Config where
  memoryWords : Nat
  snapshotInterval : Nat
  deriving DecidableEq, Repr

namespace Config

def maxMemoryWords : Nat := 0x10000

/-- The configuration that is used unless somebody asks for another. -/
def standard : Config :=
  ⟨4096, 1⟩

end Config

/-! ## Processors -/

structure Cpu where
  architecture : Architecture
  snapshotInterval : Nat
  program : Program
  state : MachineState
  status : Status
  /-- Somebody is told about events. -/
  observed : Bool
  /-- Somebody supplies the values that the program waits for. -/
  supplied : Bool

structure RunSummary where
  status : Status
  cycles : Nat
  interrupted : Bool
  deriving DecidableEq, Repr

namespace RunSummary

def text (summary : RunSummary) : String :=
  (if summary.interrupted then "Interrupted" else summary.status.text) ++ " after " ++
    Text.decimal summary.cycles ++ " cycle(s)"

end RunSummary

namespace Cpu

/-- A processor without a program, which nobody watches. -/
def new (architecture : Architecture) (config : Config) : Cpu where
  architecture := architecture
  snapshotInterval := config.snapshotInterval
  program := #[]
  state := .initial (min config.memoryWords Config.maxMemoryWords)
  status := .ready
  observed := false
  supplied := false

/-- The processor with another program, as long as it has not started. -/
def load (cpu : Cpu) (program : Program) : Option Cpu :=
  if cpu.status = .ready then
    some { cpu with program, state := { cpu.state with pc := 0 } }
  else none

def boot (architecture : Architecture) (config : Config) (program : Program) : Cpu :=
  { new architecture config with program }

/-- Loading a program into a new processor is what `boot` does. -/
theorem load_new (architecture : Architecture) (config : Config) (program : Program) :
    (new architecture config).load program = some (boot architecture config program) :=
  rfl

def notReadyMessage (status : Status) : String :=
  "a program can only be loaded while the CPU is ready, but it is " ++ status.text

def dumpCore (cpu : Cpu) : CoreDump where
  status := cpu.status
  state := cpu.state
  instruction := cpu.program[cpu.state.pc]?.map cpu.architecture.disassemble

def summary (cpu : Cpu) (interrupted : Bool) : RunSummary :=
  ⟨cpu.status, cpu.state.cycles, interrupted⟩

/-! ## Turns to the outside -/

/-- Tells the observer, if there is one.  An observer who does not listen any more is forgotten. -/
def publish (cpu : Cpu) (event : Event) : Dialogue Cpu :=
  if cpu.observed then
    .publish event fun received =>
      if received then .done cpu
      else .note .hungUp (.done { cpu with observed := false })
  else .done cpu

/-- Stops for good after `HLT`, or behind the end of the program. -/
def halt (cpu : Cpu) : Dialogue Cpu :=
  let cpu := { cpu with status := .halted, state := cpu.state.halt }
  .note (.halted cpu.state.pc cpu.state.cycles) (cpu.publish (.halted cpu.state))

def fail (cpu : Cpu) (fault : Fault) : Dialogue Cpu :=
  -- The state stays as it was before the instruction.
  let cpu := { cpu with status := .faulted fault }
  .note (.faulted cpu.state.cycles fault) (cpu.publish (.faulted fault cpu.state))

/-- Whether the observer gets a copy of the state now. -/
def snapshotDue (cpu : Cpu) : Bool :=
  cpu.snapshotInterval != 0 && cpu.state.cycles % cpu.snapshotInterval == 0

/-- Completes an instruction that has had its effect on the state; execution goes on at
`target`. -/
def complete (cpu : Cpu) (target : Nat) : Dialogue Cpu :=
  let cpu := { cpu with state := cpu.state.complete target }
  if cpu.snapshotDue then cpu.publish (.snapshot cpu.state) else .done cpu

/-- Shows a value: to the observer, or else in the log. -/
def emit (cpu : Cpu) (value : UInt16) : Dialogue Cpu :=
  if cpu.observed then cpu.publish (.output value)
  else .note (.unobservedOutput value) (.done cpu)

/-- Waits for a value.  Without anybody who supplies one it is zero. -/
def read (cpu : Cpu) : Dialogue (UInt16 × Cpu) :=
  if cpu.supplied then
    -- The request goes out first, so that an observer can answer it.
    (cpu.publish .inputRequested).bind fun cpu =>
      .receive fun
        | some value => .done (value, cpu)
        | none => .note .inputClosed (.done (0, { cpu with supplied := false }))
  else .note (.inputUnattached cpu.state.pc) (.done (0, cpu))

/-! ## Cycles -/

def perform (cpu : Cpu) (operation : Operation) (instruction : Instruction) : Dialogue Cpu :=
  let next := cpu.state.pc + 1
  match Machine.execute operation instruction cpu.state with
  | .error fault => cpu.fail fault
  | .ok (.proceed state target) => { cpu with state }.complete target
  | .ok (.store address value) =>
    { cpu with state := cpu.state.setMemory address value }.complete next
  -- `HLT` counts as completed, but execution stays at it.
  | .ok .halt => { cpu with state := cpu.state.complete cpu.state.pc }.halt
  | .ok (.output value) => (cpu.emit value).bind fun cpu => cpu.complete next
  | .ok (.input dest) =>
    cpu.read.bind fun (value, cpu) =>
      { cpu with state := cpu.state.setRegister dest value }.complete next

/-- One cycle.  A processor that has stopped does nothing. -/
def step (cpu : Cpu) : Dialogue Cpu :=
  if cpu.status.isTerminal then .done cpu
  else
    let cpu := { cpu with status := .running }
    -- Fetch; behind the end of the program there is nothing to fetch.
    match cpu.program[cpu.state.pc]? with
    | none => .note (.pastEnd cpu.state.pc) cpu.halt
    | some instruction =>
      -- Decode; an opcode that is not in the table is a fault.
      match cpu.architecture.operation? instruction.opcode with
      | none => cpu.fail (.unknownOpcode cpu.state.pc instruction.opcode)
      | some operation =>
        .note (.executing cpu.state.pc instruction) (cpu.perform operation instruction)

/-! ## Runs -/

/-- Repeats cycles against a host until the processor stops, or until the host asks for an interrupt
between two cycles.  The flag says which.  There is no result if that takes more than `fuel`
cycles. -/
def loop {σ : Type} (host : Host σ) (interruptRequested : σ → Bool) :
    Nat → Cpu → σ → Option (Bool × Cpu × σ)
  | fuel, cpu, world =>
    -- A processor that has stopped is not interrupted any more.
    if cpu.status.isTerminal then some (false, cpu, world)
    else if interruptRequested world then some (true, cpu, world)
    else match fuel with
      | 0 => none
      | fuel + 1 =>
        match cpu.step.run host world with
        | (cpu, world) => loop host interruptRequested fuel cpu world

def start (cpu : Cpu) : Dialogue Cpu :=
  if cpu.status = .ready then
    .note (.running cpu.program.size) (.done { cpu with status := .running })
  else .done cpu

/-- Starts the processor and repeats cycles.  Observer and supplier are released at the end. -/
def run {σ : Type} (host : Host σ) (interruptRequested : σ → Bool) (fuel : Nat) (cpu : Cpu)
    (world : σ) : Option (Bool × Cpu × σ) :=
  match cpu.start.run host world with
  | (cpu, world) =>
    (loop host interruptRequested fuel cpu world).map fun (interrupted, cpu, world) =>
      (interrupted, { cpu with observed := false, supplied := false }, world)

/-- More cycles than any run that somebody waits for. -/
def patience : Nat := 0x4000000000000000

end Cpu
end Minicomputer
