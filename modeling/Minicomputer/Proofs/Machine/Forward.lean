import Mathlib.Data.Nat.Find
import Minicomputer.Proofs.Machine.Linkage
import Minicomputer.Proofs.Machine.Trajectory

/-!
# Programs that only lead forward

If every jump leads to a later address and nothing returns, the program counter grows with every
instruction that is completed, except for `HLT`, which stays where it is and is the last.  No
address is executed twice, and there are only as many as the program is long.

* `Program.LeadsForward` -- the programs;
* `Core.Onward`, `Core.cycle_onward` -- what a cycle of such a program can come to;
* `Core.Ahead`, `Core.Ahead.cycle` -- how the program counter keeps ahead of the number of cycles;
* `Cpu.forward_programs_stop` -- when such a program stops, and what it has done by then.

A jump may lead beyond the end of the program, where one more cycle finds that there is nothing.
-/

namespace Minicomputer

/-- The operations that go on at the address in the immediate field, or may do so. -/
def Operation.jumps : Operation → Bool
  | jmp | jz | jnz | jc | jnc | call => true
  | nop | hlt | mov | ldi | ld | st | add | addi | sub | mul | div | mod | and | or | xor | not
  | shl | shr | cmp | ret | input | output => false

/-- Every jump leads to an address behind its own, and nothing returns.  What is not in the table is
no instruction. -/
structure Program.LeadsForward (architecture : Architecture) (program : Program) : Prop where
  jumps : ∀ (address : Nat) (instruction : Instruction) operation, program[address]? = some instruction →
    architecture.operation? instruction.opcode = some operation → operation.jumps = true →
      address < instruction.immediate.toNat
  returns : ∀ (address : Nat) (instruction : Instruction), program[address]? = some instruction →
    architecture.operation? instruction.opcode ≠ some .ret

/-- It is enough to look at every address of the program. -/
theorem Program.leadsForward_iff {architecture : Architecture} {program : Program} :
    LeadsForward architecture program ↔
      ∀ address : Fin program.size,
        ∀ operation ∈ architecture.operation? program[address].opcode,
          operation ≠ .ret ∧
            (operation.jumps = true → address < program[address].immediate.toNat) := by
  constructor
  · intro forward address operation decoded
    have fetched : program[address.val]? = some program[address] :=
      Array.getElem?_eq_getElem address.isLt
    exact ⟨fun ret => forward.returns _ _ fetched (ret ▸ decoded),
      forward.jumps _ _ operation fetched decoded⟩
  · intro each
    constructor
    · intro address instruction operation fetched decoded
      obtain ⟨inside, rfl⟩ := Array.getElem?_eq_some_iff.mp fetched
      exact (each ⟨address, inside⟩ operation decoded).2
    · intro address instruction fetched decoded
      obtain ⟨inside, rfl⟩ := Array.getElem?_eq_some_iff.mp fetched
      exact (each ⟨address, inside⟩ .ret decoded).1 rfl

instance (architecture : Architecture) (program : Program) :
    Decidable (Program.LeadsForward architecture program) :=
  decidable_of_iff' _ Program.leadsForward_iff

/-! ## Where an instruction leads -/

/-- An instruction that neither jumps nor returns goes on with the next one. -/
theorem Machine.target_cases {operation : Operation} {instruction : Instruction}
    {state after : MachineState} {target : Nat}
    (h : execute operation instruction state = .ok (.proceed after target)) :
    target = state.pc + 1 ∨ operation.jumps = true ∧ target = instruction.immediate.toNat ∨
      operation = .ret := by
  cases operation
  case jmp =>
    cases h
    exact .inr (.inl ⟨rfl, rfl⟩)
  case jz | jnz | jc | jnc =>
    cases h
    split
    · exact .inr (.inl ⟨rfl, rfl⟩)
    · exact .inl rfl
  case call =>
    simp only [execute] at h
    split at h
    · cases h
      exact .inr (.inl ⟨rfl, rfl⟩)
    · cases h
  case ret => exact .inr (.inr rfl)
  case ld | st | div | mod =>
    simp only [execute] at h
    split at h
    · cases h
    · cases h <;> exact .inl rfl
  all_goals cases h <;> exact .inl rfl

namespace Core

theorem pc_lt_complete {operation : Operation} {instruction : Instruction} {state : MachineState}
    {effect : Machine.Effect state.memory.size}
    (executed : Machine.execute operation instruction state = .ok effect)
    (jumps : operation.jumps = true → state.pc < instruction.immediate.toNat)
    (returns : operation ≠ .ret) (halts : operation ≠ .hlt) (value : UInt16) :
    state.pc < (complete value state effect).state.pc := by
  cases effect with
  | proceed after target =>
    show state.pc < target
    rcases Machine.target_cases executed with rfl | ⟨jump, rfl⟩ | ret
    · exact Nat.lt_succ_self _
    · exact jumps jump
    · exact absurd ret returns
  | halt => exact absurd (Machine.eq_of_operation? rfl executed) halts
  | store address stored => exact Nat.lt_succ_self _
  | output shown => exact Nat.lt_succ_self _
  | input dest => exact Nat.lt_succ_self _

/-- What a cycle of a program that leads forward can come to, unless the processor has stopped
before. -/
inductive Onward (program : Program) (before after : Core) : Prop
  | advances (inside : before.state.pc < program.size)
      (counted : after.state.cycles = before.state.cycles + 1)
      (further : before.state.pc < after.state.pc)
  | halts (inside : before.state.pc < program.size)
      (counted : after.state.cycles = before.state.cycles + 1) (stopped : after.status.isTerminal)
  | stops (uncounted : after.state.cycles = before.state.cycles) (stopped : after.status.isTerminal)

variable {architecture : Architecture} {program : Program} {core : Core}

theorem cycle_onward (forward : Program.LeadsForward architecture program)
    (going : ¬ core.status.isTerminal) (value : UInt16) :
    Onward program core (core.cycle architecture program value) := by
  cases fetched : program[core.state.pc]? with
  | none =>
    rw [cycle_of_pastEnd going fetched]
    exact .stops rfl rfl
  | some instruction =>
    have inside := (Array.getElem?_eq_some_iff.mp fetched).1
    cases decoded : architecture.operation? instruction.opcode with
    | none =>
      rw [cycle_of_unknown going fetched decoded]
      exact .stops rfl rfl
    | some operation =>
      rw [cycle_of_operation going fetched decoded, perform]
      cases executed : Machine.execute operation instruction core.state with
      | error fault => exact .stops rfl rfl
      | ok effect =>
        obtain ⟨counted, -⟩ := complete_kept executed value
        by_cases halts : operation = .hlt
        · subst halts
          cases executed
          exact .halts inside counted rfl
        · have returns : operation ≠ .ret := fun ret =>
            forward.returns _ _ fetched (ret ▸ decoded)
          exact .advances inside counted
            (pc_lt_complete executed (forward.jumps _ _ _ fetched decoded) returns halts value)

/-- After so many cycles a processor that has not stopped has completed as many instructions, and
its program counter is at least that far.  There are never more than the program has. -/
structure Ahead (program : Program) (n : Nat) (core : Core) : Prop where
  counted : ¬ core.status.isTerminal → core.state.cycles = n
  ahead : ¬ core.status.isTerminal → n ≤ core.state.pc
  within : core.state.cycles ≤ program.size

namespace Ahead

variable {n : Nat}

/-- What has stopped is not bound to be ahead. -/
theorem of_terminal (terminal : core.status.isTerminal)
    (within : core.state.cycles ≤ program.size) : core.Ahead program n :=
  ⟨fun going => absurd terminal going, fun going => absurd terminal going, within⟩

theorem cycle (ahead : core.Ahead program n)
    (forward : Program.LeadsForward architecture program) (value : UInt16) :
    (core.cycle architecture program value).Ahead program (n + 1) := by
  by_cases terminal : core.status.isTerminal
  · rw [cycle_of_terminal terminal]
    exact of_terminal terminal ahead.within
  · have counted := ahead.counted terminal
    have far := ahead.ahead terminal
    cases cycle_onward forward terminal value with
    | advances inside counted' further =>
      exact ⟨fun _ => by omega, fun _ => by omega, by omega⟩
    | halts inside counted' stopped => exact of_terminal stopped (by omega)
    | stops uncounted stopped => exact of_terminal stopped (uncounted ▸ ahead.within)

theorem le_size (ahead : core.Ahead program n) (going : ¬ core.status.isTerminal) :
    n ≤ program.size :=
  ahead.counted going ▸ ahead.within

end Ahead
end Core

/-! ## A run -/

namespace Cpu

variable {σ : Type} (host : Host σ) (cpu : Cpu) (world : σ)

/-- The table and the program stay as they are. -/
theorem cycles_program (n : Nat) :
    (cpu.cycles host n world).1.architecture = cpu.architecture ∧
      (cpu.cycles host n world).1.program = cpu.program := by
  induction n with
  | zero => exact ⟨rfl, rfl⟩
  | succ n ih =>
    rw [cycles_succ]
    obtain ⟨table, program⟩ := step_run_program host (cpu.cycles host n world).1
      (cpu.cycles host n world).2
    exact ⟨table.trans ih.1, program.trans ih.2⟩

/-- The core after so many cycles is that of a cycle after one cycle less. -/
theorem core_cycles_succ (n : Nat) :
    ∃ value, (cpu.cycles host (n + 1) world).1.core =
      (cpu.cycles host n world).1.core.cycle cpu.architecture cpu.program value := by
  obtain ⟨table, program⟩ := cycles_program host cpu world n
  refine ⟨((cpu.cycles host n world).1.valueRead? host (cpu.cycles host n world).2).getD 0, ?_⟩
  rw [cycles_succ, step_run_core, table, program]

variable {host cpu world}

/-- A processor that has stopped has stopped for good. -/
theorem going_of_later {n : Nat} (going : ¬ (cpu.cycles host (n + 1) world).1.status.isTerminal) :
    ¬ (cpu.cycles host n world).1.status.isTerminal := by
  intro terminal
  obtain ⟨value, core⟩ := core_cycles_succ host cpu world n
  rw [Core.cycle_of_terminal terminal] at core
  exact going ((congrArg (fun core => core.status.isTerminal) core).trans terminal)

section

variable (forward : Program.LeadsForward cpu.architecture cpu.program)

include forward

theorem ahead_cycles (ahead : cpu.core.Ahead cpu.program 0) (n : Nat) :
    (cpu.cycles host n world).1.core.Ahead cpu.program n := by
  induction n with
  | zero => exact ahead
  | succ n ih =>
    obtain ⟨value, core⟩ := core_cycles_succ host cpu world n
    rw [core]
    exact ih.cycle forward value

/-- There is an end after one cycle more than there are instructions, if not before. -/
theorem terminal_cycles (ahead : cpu.core.Ahead cpu.program 0) :
    (cpu.cycles host (cpu.program.size + 1) world).1.status.isTerminal := by
  apply Decidable.byContradiction
  intro going
  have within := (ahead_cycles forward ahead (cpu.program.size + 1)).le_size going
  exact absurd within (Nat.not_succ_le_self _)

theorem pc_lt_succ {n : Nat} (going : ¬ (cpu.cycles host (n + 1) world).1.status.isTerminal) :
    (cpu.stateAt host world n).pc < (cpu.stateAt host world (n + 1)).pc := by
  obtain ⟨value, core⟩ := core_cycles_succ host cpu world n
  have before : ¬ (cpu.cycles host n world).1.core.status.isTerminal := going_of_later going
  have onward := Core.cycle_onward forward before value
  rw [← core] at onward
  cases onward with
  | advances inside counted further => exact further
  | halts inside counted stopped => exact absurd stopped going
  | stops uncounted stopped => exact absurd stopped going

/-- As long as the processor has not stopped, the program counter has been growing. -/
theorem pc_lt_of_lt {i j : Nat} (before : i < j)
    (going : ¬ (cpu.cycles host j world).1.status.isTerminal) :
    (cpu.stateAt host world i).pc < (cpu.stateAt host world j).pc := by
  induction j with
  | zero => exact absurd before (Nat.not_lt_zero i)
  | succ j ih =>
    have further := pc_lt_succ forward going
    rcases Nat.lt_succ_iff_lt_or_eq.mp before with earlier | rfl
    · exact Nat.lt_trans (ih earlier (going_of_later going)) further
    · exact further

/-- What is carried out leads on, unless it is `HLT`. -/
theorem pc_lt_of_operationAt {n : Nat} {operation : Operation}
    (done : cpu.operationAt host world n = some operation) (halts : operation ≠ .hlt) :
    (cpu.stateAt host world n).pc < (cpu.stateAt host world (n + 1)).pc := by
  obtain ⟨⟨operation, instruction, before, read⟩, carried, rfl⟩ := Option.map_eq_some_iff.mp done
  obtain ⟨going, upcoming⟩ := upcoming?_of_deed? host carried
  obtain ⟨rfl, effect, executed⟩ := executed_of_deed? host carried
  obtain ⟨table, program⟩ := cycles_program host cpu world n
  obtain ⟨fetched, decoded⟩ := upcoming?_eq_some_iff.mp upcoming
  rw [program] at fetched
  rw [table] at decoded
  have returns : operation ≠ .ret := fun ret => forward.returns _ _ fetched (ret ▸ decoded)
  obtain ⟨value, core⟩ := core_cycles_succ host cpu world n
  have left : Core.perform operation instruction value (cpu.cycles host n world).1.state =
      Core.complete value _ effect := by
    rw [Core.perform, executed]
  rw [Core.cycle_of_operation going fetched decoded] at core
  rw [stateAt, stateAt, show (cpu.cycles host (n + 1) world).1.state = _ from
    congrArg Core.state (core.trans left)]
  exact Core.pc_lt_complete executed (forward.jumps _ _ _ fetched decoded) returns halts value

end

/-- A run that would come to its end comes back, at the end or with an interrupt before it. -/
theorem exists_loopsFor (requested : σ → Bool) {m : Nat}
    (ends : (cpu.cycles host m world).1.status.isTerminal) :
    ∃ n ≤ m, ∃ interrupted, LoopsFor host requested cpu world n interrupted := by
  have some_end : ∃ n, (cpu.cycles host n world).1.status.isTerminal = true ∨
      requested (cpu.cycles host n world).2 = true := ⟨m, .inl ends⟩
  have earlier {i : Nat} (before : i < Nat.find some_end) := not_or.mp (Nat.find_min some_end before)
  refine ⟨Nat.find some_end, Nat.find_min' some_end (.inl ends),
    !(cpu.cycles host (Nat.find some_end) world).1.status.isTerminal, ?_, ?_, ?_, ?_⟩
  · exact fun i before => (earlier before).1
  · exact fun i before => Bool.eq_false_iff.mpr (earlier before).2
  · intro stopped
    simpa using stopped
  · intro going
    have going' : ¬ (cpu.cycles host (Nat.find some_end) world).1.status.isTerminal = true := by
      simpa using going
    exact ⟨going', (Nat.find_spec some_end).resolve_left going'⟩

theorem halted_or_faulted {status : Status} (terminal : status.isTerminal) :
    status = .halted ∨ ∃ fault, status = .faulted fault := by
  cases status with
  | ready => cases terminal
  | running => cases terminal
  | halted => exact .inl rfl
  | faulted fault => exact .inr ⟨fault, rfl⟩

/-- The address whose instruction the cycle with that number executes, if it finds one. -/
def addressAt (host : Host σ) (cpu : Cpu) (world : σ) (i : Nat) : Option Nat :=
  if (cpu.cycles host i world).1.status.isTerminal then none
  else if (cpu.stateAt host world i).pc < cpu.program.size then some (cpu.stateAt host world i).pc
  else none

theorem addressAt_eq_some {i address : Nat} (executed : cpu.addressAt host world i = some address) :
    ¬ (cpu.cycles host i world).1.status.isTerminal ∧
      (cpu.stateAt host world i).pc = address := by
  unfold addressAt at executed
  split at executed
  next => cases executed
  next going =>
    split at executed
    next => exact ⟨going, Option.some.inj executed⟩
    next => cases executed

/-- With any table, any memory and any snapshots, and whatever comes from whomever, a program that
only leads forward comes back from a run after at most one cycle more than it has instructions.  It
has halted or faulted then, unless somebody has requested an interrupt, and has completed at most as
many instructions as there are.  The addresses that are executed grow from cycle to cycle, so none
comes twice, and every instruction that is carried out leads on, unless it is `HLT`. -/
theorem forward_programs_stop (architecture : Architecture) (config : Config) (program : Program)
    (forward : Program.LeadsForward architecture program) (observed supplied : Bool) {σ : Type}
    (host : Host σ) (requested : σ → Bool) (world : σ) :
    let cpu := (boot architecture config program).attached observed supplied
    let started := (cpu.start.run host world).1
    let begun := (cpu.start.run host world).2
    (∃ n ≤ program.size + 1, ∃ interrupted last world',
      (∀ fuel, n ≤ fuel →
        cpu.run host requested fuel world = some (interrupted, last, world')) ∧
      (started.visited host requested n begun).length = n ∧
      last.state.cycles ≤ program.size ∧
      (interrupted = false → last.status = .halted ∨ ∃ fault, last.status = .faulted fault) ∧
      (interrupted = true → ∃ world'', requested world'' = true)) ∧
    (∀ i j a b, i < j → started.addressAt host begun i = some a →
      started.addressAt host begun j = some b → a < b) ∧
    ∀ i operation, started.operationAt host begun i = some operation → operation ≠ .hlt →
      (started.stateAt host begun i).pc < (started.stateAt host begun (i + 1)).pc := by
  intro cpu started begun
  have ahead : started.core.Ahead program 0 :=
    ⟨fun _ => rfl, fun _ => Nat.zero_le _, Nat.zero_le _⟩
  have leads : Program.LeadsForward started.architecture started.program := forward
  refine ⟨?_, ?_, fun i operation done => pc_lt_of_operationAt leads done⟩
  · have terminal : (started.cycles host (program.size + 1) begun).1.status.isTerminal :=
      terminal_cycles leads ahead
    obtain ⟨n, within, interrupted, loops⟩ := exists_loopsFor requested terminal
    let stopped := started.cycles host n begun
    have kept : stopped.1.core.Ahead program n := ahead_cycles leads ahead n
    refine ⟨n, within, interrupted, stopped.1.attached false false, stopped.2, ?_,
      length_visited loops (Nat.le_refl n), kept.within, ?_, ?_⟩
    · intro fuel enough
      have looped : loop host requested fuel started begun =
          some (interrupted, stopped.1, stopped.2) :=
        loop_eq_some_iff.mpr ⟨n, enough, loops, rfl⟩
      show (loop host requested fuel started begun).map _ = _
      rw [looped]
      rfl
    · exact fun uninterrupted => halted_or_faulted (loops.stopped uninterrupted)
    · exact fun isInterrupted => ⟨_, (loops.asked isInterrupted).2⟩
  · intro i j a b before first second
    obtain ⟨-, rfl⟩ := addressAt_eq_some first
    obtain ⟨going, rfl⟩ := addressAt_eq_some second
    exact pc_lt_of_lt leads before going

/-- A jump over an instruction to an address far behind the end, with a value that is read before. -/
theorem forward_programs_stop_beyond :
    let program : Program := #[⟨0x60, 1, 0, 0⟩, ⟨0x40, 1, 2, 0⟩, ⟨0x51, 0, 0, 0xFFFF⟩,
      ⟨0x01, 0, 0, 0⟩]
    let cpu := (boot .standard ⟨0, 1⟩ program).attached true true
    let started := (cpu.start.run .silent ()).1
    Program.LeadsForward .standard program ∧
      (∃ last, cpu.run .silent (fun _ => false) 5 () = some (false, last, ()) ∧
        last.status = .halted ∧ last.state.pc = 0xFFFF ∧ last.state.cycles ≤ 4) ∧
      started.addressAt .silent () 2 = some 2 ∧ started.addressAt .silent () 3 = none := by
  intro program cpu started
  have forward : Program.LeadsForward .standard program := by decide +kernel
  obtain ⟨⟨n, within, interrupted, last, world', returned, -, counted, -, asked⟩, -, -⟩ :=
    forward_programs_stop .standard ⟨0, 1⟩ program forward true true .silent (fun _ => false) ()
  obtain rfl : interrupted = false := Bool.eq_false_iff.mpr fun isInterrupted =>
    absurd (asked isInterrupted) (by simp)
  have ended : (cpu.run .silent (fun _ => false) 5 ()).map
      (fun left => (left.2.1.status, left.2.1.state.pc)) = some (.halted, 0xFFFF) := by
    decide +kernel
  have stopped := returned 5 within
  rw [stopped] at ended
  obtain ⟨halted, pc⟩ := Prod.mk.inj (Option.some.inj ended)
  exact ⟨forward, ⟨last, stopped, halted, pc, counted⟩, by decide +kernel, by decide +kernel⟩

end Cpu
end Minicomputer
