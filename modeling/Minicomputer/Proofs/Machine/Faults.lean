import Minicomputer.Architecture.Standard
import Minicomputer.Proofs.Machine.Core

/-!
# Faults

When a cycle ends in a fault, in which one, and what it leaves alone.  The reasons are said without
the order in which the processor looks at things:

* `Machine.Refuses` -- an operation cannot be carried out in a state;
* `Core.Raises` -- the same for a program in a table of instructions, which may lack the opcode.

A state raises at most one fault, and it names the instruction at the program counter.
-/

namespace Minicomputer

/-! ## Operations -/

namespace Machine

/-- The operation cannot be carried out with the fields of the instruction. -/
inductive Refuses (instruction : Instruction) (state : MachineState) : Operation → Fault → Prop
  | load {address : Int}
      (sum : (state.register instruction.src).toNat + instruction.signedImmediate = address)
      (outside : address < 0 ∨ state.memory.size ≤ address) :
      Refuses instruction state .ld (.memoryOutOfRange state.pc address)
  | store {address : Int}
      (sum : (state.register instruction.dest).toNat + instruction.signedImmediate = address)
      (outside : address < 0 ∨ state.memory.size ≤ address) :
      Refuses instruction state .st (.memoryOutOfRange state.pc address)
  | div (zero : state.register instruction.src = 0) :
      Refuses instruction state .div (.divideByZero state.pc)
  | mod (zero : state.register instruction.src = 0) :
      Refuses instruction state .mod (.divideByZero state.pc)
  | call (far : 65535 < state.pc + 1) :
      Refuses instruction state .call (.returnAddressOutOfRange state.pc)

theorem effectiveAddress_eq_error_iff {state : MachineState} {base : UInt16} {offset : Int}
    {fault : Fault} :
    effectiveAddress state base offset = .error fault ↔
      ((base.toNat : Int) + offset < 0 ∨ state.memory.size ≤ (base.toNat : Int) + offset) ∧
        fault = .memoryOutOfRange state.pc (base.toNat + offset) := by
  simp only [effectiveAddress]
  split
  next inside =>
    -- Inside memory the sum is neither negative nor too large.
    have notOutside : ¬ ((base.toNat : Int) + offset < 0 ∨
        (state.memory.size : Int) ≤ (base.toNat : Int) + offset) := by omega
    constructor
    · intro h
      cases h
    · intro h
      exact absurd h.1 notOutside
  next outside =>
    constructor
    · intro h
      cases h
      exact ⟨by omega, rfl⟩
    · intro h
      rw [h.2]

section

variable {operation : Operation} {instruction : Instruction} {state : MachineState} {fault : Fault}

/-- Loading and storing take their addresses from different registers, and fail alike. -/
theorem execute_access_eq_error_iff {base : Register}
    (access : operation = .ld ∧ base = instruction.src ∨
      operation = .st ∧ base = instruction.dest) :
    execute operation instruction state = .error fault ↔
      let address := ((state.register base).toNat : Int) + instruction.signedImmediate
      (address < 0 ∨ state.memory.size ≤ address) ∧
        fault = .memoryOutOfRange state.pc address := by
  rw [← effectiveAddress_eq_error_iff]
  rcases access with ⟨rfl, rfl⟩ | ⟨rfl, rfl⟩ <;>
  · rw [execute]
    cases effectiveAddress state (state.register _) instruction.signedImmediate with
    | error found => simp
    | ok address => simp

/-- The two results of a division fail alike. -/
theorem execute_division_eq_error_iff (division : operation = .div ∨ operation = .mod) :
    execute operation instruction state = .error fault ↔
      state.register instruction.src = 0 ∧ fault = .divideByZero state.pc := by
  rcases division with rfl | rfl <;>
  · rw [execute]
    split
    next zero => simp [zero, eq_comm]
    next nonzero => simp [nonzero]

theorem refuses_of_execute (h : execute operation instruction state = .error fault) :
    Refuses instruction state operation fault := by
  cases operation
  case ld =>
    obtain ⟨outside, rfl⟩ := (execute_access_eq_error_iff (.inl ⟨rfl, rfl⟩)).mp h
    exact .load rfl outside
  case st =>
    obtain ⟨outside, rfl⟩ := (execute_access_eq_error_iff (.inr ⟨rfl, rfl⟩)).mp h
    exact .store rfl outside
  case div =>
    obtain ⟨zero, rfl⟩ := (execute_division_eq_error_iff (.inl rfl)).mp h
    exact .div zero
  case mod =>
    obtain ⟨zero, rfl⟩ := (execute_division_eq_error_iff (.inr rfl)).mp h
    exact .mod zero
  case call =>
    simp only [execute] at h
    split at h
    next => cases h
    next far =>
      cases h
      exact .call (by omega)
  -- The other branches of the definition never end in an error.
  all_goals
    simp only [execute] at h
    cases h

theorem execute_of_refuses (h : Refuses instruction state operation fault) :
    execute operation instruction state = .error fault := by
  cases h with
  | load sum outside =>
    subst sum
    exact (execute_access_eq_error_iff (.inl ⟨rfl, rfl⟩)).mpr ⟨outside, rfl⟩
  | store sum outside =>
    subst sum
    exact (execute_access_eq_error_iff (.inr ⟨rfl, rfl⟩)).mpr ⟨outside, rfl⟩
  | div zero => exact (execute_division_eq_error_iff (.inl rfl)).mpr ⟨zero, rfl⟩
  | mod zero => exact (execute_division_eq_error_iff (.inr rfl)).mpr ⟨zero, rfl⟩
  | call far =>
    have noAddress : ¬ state.pc + 1 < 0x10000 := by omega
    simp [execute, noAddress]

/-- Execution ends in an error exactly if there is a reason for it. -/
theorem execute_eq_error_iff :
    execute operation instruction state = .error fault ↔
      Refuses instruction state operation fault :=
  ⟨refuses_of_execute, execute_of_refuses⟩

theorem Refuses.pc_eq (h : Refuses instruction state operation fault) : fault.pc = state.pc := by
  cases h <;> rfl

end

end Machine

/-! ## Cycles -/

namespace Core

/-- The instruction at the program counter cannot be carried out. -/
inductive Raises (architecture : Architecture) (program : Program) (state : MachineState) :
    Fault → Prop
  | unknownOpcode {instruction : Instruction}
      (fetched : program[state.pc]? = some instruction)
      (unlisted : ∀ spec ∈ architecture.specs, spec.opcode ≠ instruction.opcode) :
      Raises architecture program state (.unknownOpcode state.pc instruction.opcode)
  | refused {instruction : Instruction} {operation : Operation} {fault : Fault}
      (fetched : program[state.pc]? = some instruction)
      (decoded : architecture.operation? instruction.opcode = some operation)
      (refuses : Machine.Refuses instruction state operation fault) :
      Raises architecture program state fault

section

variable {architecture : Architecture} {program : Program} {state : MachineState} {fault : Fault}

theorem operation?_eq_none_iff {opcode : UInt8} :
    architecture.operation? opcode = none ↔
      ∀ spec ∈ architecture.specs, spec.opcode ≠ opcode := by
  simp [Architecture.operation?, Architecture.lookupOpcode]

theorem Raises.pc_eq (h : Raises architecture program state fault) : fault.pc = state.pc := by
  cases h with
  | unknownOpcode fetched unlisted => rfl
  | refused fetched decoded refuses => exact refuses.pc_eq

theorem Raises.pc_lt_size (h : Raises architecture program state fault) :
    state.pc < program.size := by
  cases h with
  | unknownOpcode fetched unlisted => exact (Array.getElem?_eq_some_iff.mp fetched).1
  | refused fetched decoded refuses => exact (Array.getElem?_eq_some_iff.mp fetched).1

theorem not_raises_of_pastEnd (fetched : program[state.pc]? = none) :
    ¬ Raises architecture program state fault := by
  intro h
  have outside := Array.getElem?_eq_none_iff.mp fetched
  have inside := h.pc_lt_size
  omega

theorem raises_iff_of_unknown {instruction : Instruction}
    (fetched : program[state.pc]? = some instruction)
    (decoded : architecture.operation? instruction.opcode = none) :
    Raises architecture program state fault ↔
      fault = .unknownOpcode state.pc instruction.opcode := by
  constructor
  · intro h
    cases h with
    | unknownOpcode fetched' unlisted =>
      cases fetched.symm.trans fetched'
      rfl
    | refused fetched' decoded' refuses =>
      cases fetched.symm.trans fetched'
      cases decoded.symm.trans decoded'
  · rintro rfl
    exact .unknownOpcode fetched (operation?_eq_none_iff.mp decoded)

theorem raises_iff_of_operation {instruction : Instruction} {operation : Operation}
    (fetched : program[state.pc]? = some instruction)
    (decoded : architecture.operation? instruction.opcode = some operation) :
    Raises architecture program state fault ↔
      Machine.Refuses instruction state operation fault := by
  constructor
  · intro h
    cases h with
    | unknownOpcode fetched' unlisted =>
      cases fetched.symm.trans fetched'
      cases (operation?_eq_none_iff.mpr unlisted).symm.trans decoded
    | refused fetched' decoded' refuses =>
      cases fetched.symm.trans fetched'
      cases decoded.symm.trans decoded'
      exact refuses
  · exact .refused fetched decoded

end

theorem status_complete (value : UInt16) (state : MachineState)
    (effect : Machine.Effect state.memory.size) (fault : Fault) :
    (complete value state effect).status ≠ .faulted fault := by
  cases effect <;> exact Status.noConfusion

theorem perform_faulted_iff {operation : Operation} {instruction : Instruction} {value : UInt16}
    {state : MachineState} {fault : Fault} :
    (perform operation instruction value state).status = .faulted fault ↔
      Machine.Refuses instruction state operation fault := by
  rw [← Machine.execute_eq_error_iff]
  unfold perform
  cases Machine.execute operation instruction state with
  | error found => simp
  | ok effect => simpa using status_complete value state effect fault

theorem state_perform_of_faulted {operation : Operation} {instruction : Instruction}
    {value : UInt16} {state : MachineState} {fault : Fault}
    (h : (perform operation instruction value state).status = .faulted fault) :
    (perform operation instruction value state).state = state := by
  have refuses := perform_faulted_iff.mp h
  rw [perform, Machine.execute_of_refuses refuses]

section

variable {architecture : Architecture} {program : Program} {value : UInt16} {core : Core}
  {fault : Fault}

/-- A cycle ends in a fault exactly if the state raises it. -/
theorem cycle_faulted_iff (going : ¬ core.status.isTerminal) :
    (core.cycle architecture program value).status = .faulted fault ↔
      Raises architecture program core.state fault := by
  cases fetched : program[core.state.pc]? with
  | none =>
    rw [cycle_of_pastEnd going fetched]
    simpa using not_raises_of_pastEnd fetched
  | some instruction =>
    cases decoded : architecture.operation? instruction.opcode with
    | none =>
      rw [cycle_of_unknown going fetched decoded, raises_iff_of_unknown fetched decoded]
      simp [eq_comm]
    | some operation =>
      rw [cycle_of_operation going fetched decoded, raises_iff_of_operation fetched decoded]
      exact perform_faulted_iff

/-- A fault leaves the state as it was before the cycle. -/
theorem state_cycle_of_faulted
    (h : (core.cycle architecture program value).status = .faulted fault) :
    (core.cycle architecture program value).state = core.state := by
  by_cases terminal : core.status.isTerminal
  · rw [cycle_of_terminal terminal]
  · cases fetched : program[core.state.pc]? with
    | none =>
      rw [cycle_of_pastEnd terminal fetched] at h
      cases h
    | some instruction =>
      cases decoded : architecture.operation? instruction.opcode with
      | none => rw [cycle_of_unknown terminal fetched decoded]
      | some operation =>
        rw [cycle_of_operation terminal fetched decoded] at h ⊢
        exact state_perform_of_faulted h

end

end Core

/-! ## Processors -/

namespace Cpu

/-- A step of a processor that has not stopped, whoever is around, ends in a fault exactly if there
is a reason for this fault.  The fault names the instruction at the program counter, which lies
inside the program, and of status, state and program only the status changes. -/
theorem step_faults_exactly {cpu : Cpu} (going : ¬ cpu.status.isTerminal) {σ : Type}
    (host : Host σ) (world : σ) (fault : Fault) :
    let next := (cpu.step.run host world).1
    (next.status = .faulted fault ↔
        Core.Raises cpu.architecture cpu.program cpu.state fault) ∧
      (next.status = .faulted fault →
        fault.pc = cpu.state.pc ∧ cpu.state.pc < cpu.program.size ∧
          next.state = cpu.state ∧ next.program = cpu.program) := by
  intro next
  have stepped : next.core =
      cpu.core.cycle cpu.architecture cpu.program ((cpu.valueRead? host world).getD 0) :=
    step_run_core host cpu world
  have status : next.status = (cpu.core.cycle cpu.architecture cpu.program
      ((cpu.valueRead? host world).getD 0)).status := congrArg Core.status stepped
  have exactly : next.status = .faulted fault ↔
      Core.Raises cpu.architecture cpu.program cpu.state fault := by
    rw [status]
    exact Core.cycle_faulted_iff going
  refine ⟨exactly, ?_⟩
  intro faulted
  have raises := exactly.mp faulted
  have state : next.state = cpu.state :=
    (congrArg Core.state stepped).trans (Core.state_cycle_of_faulted (status ▸ faulted))
  exact ⟨raises.pc_eq, raises.pc_lt_size, state, (step_run_program host cpu world).2⟩

/-- A load from an address below zero, on a machine without any memory. -/
theorem step_faults_exactly_load :
    let cpu := boot .standard ⟨0, 1⟩ #[⟨0x12, 1, 2, 0xFFFE⟩]
    ¬ cpu.status.isTerminal ∧
      (cpu.step.run .silent ()).1.status = .faulted (.memoryOutOfRange 0 (-2)) := by
  refine ⟨by decide, ?_⟩
  refine (step_faults_exactly (by decide) .silent () (.memoryOutOfRange 0 (-2))).1.mpr ?_
  exact .refused rfl (by decide) (.load (by decide) (.inl (by decide)))

end Cpu
end Minicomputer
