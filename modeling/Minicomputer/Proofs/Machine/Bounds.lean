import Minicomputer.Proofs.Machine.Lifecycle

/-!
# How far a processor can go

The program counter of a processor may leave the program, but not by much: it is at most the length
of the program, or the largest address that an instruction can name.  Its memory keeps its size.

* `Lifecycle.Invariant` -- what everything that is done with a processor keeps;
* `Core.Bounded`, `Core.Bounded.cycle` -- the bounds, and that a cycle keeps them;
* `Lifecycle.Leads.inBounds` -- the bounds at any time.
-/

namespace Minicomputer

/-! ## At any time -/

namespace Lifecycle

/-- What is kept by everything that is done with a processor. -/
structure Invariant (holds : Cpu → Prop) : Prop where
  load : ∀ (cpu : Cpu) program, holds cpu → holds ((cpu.load program).getD cpu)
  step : ∀ {σ : Type} (host : Host σ) (world : σ) (cpu : Cpu), holds cpu →
    holds (cpu.step.run host world).1
  start : ∀ {σ : Type} (host : Host σ) (world : σ) (cpu : Cpu), holds cpu →
    holds (cpu.start.run host world).1
  attached : ∀ (cpu : Cpu) observed supplied, holds cpu → holds (cpu.attached observed supplied)

namespace Invariant

variable {holds : Cpu → Prop}

theorem visited (invariant : Invariant holds) {σ : Type} (host : Host σ)
    (interruptRequested : σ → Bool) (fuel : Nat) {cpu : Cpu} (world : σ) (here : holds cpu) :
    ∀ cpu' ∈ cpu.visited host interruptRequested fuel world, holds cpu' := by
  induction fuel generalizing cpu world with
  | zero =>
    unfold Cpu.visited
    split
    · exact List.forall_mem_nil _
    · split <;> exact List.forall_mem_nil _
  | succ fuel ih =>
    unfold Cpu.visited
    split
    · exact List.forall_mem_nil _
    · split
      · exact List.forall_mem_nil _
      · exact List.forall_mem_cons.mpr ⟨here, ih _ (invariant.step host world cpu here)⟩

theorem loop (invariant : Invariant holds) {σ : Type} (host : Host σ)
    (interruptRequested : σ → Bool) (fuel : Nat) {cpu last : Cpu} {world world' : σ}
    {interrupted : Bool} (here : holds cpu)
    (returned : Cpu.loop host interruptRequested fuel cpu world =
      some (interrupted, last, world')) : holds last :=
  Cpu.loop_keeps (fun cpu _ => holds cpu) (fun cpu world => invariant.step host world cpu) here
    returned

theorem does (invariant : Invariant holds) {call : Call} {rig after : Rig} {cycles : List Cpu}
    (did : Does call rig cycles after) (here : holds rig.cpu) :
    (∀ cpu ∈ cycles, holds cpu) ∧ holds after.cpu := by
  cases did with
  | load program => exact ⟨List.forall_mem_nil _, invariant.load _ program here⟩
  | step host world =>
    exact ⟨List.forall_mem_singleton.mpr here, invariant.step host world _ here⟩
  | run host requested world _ returned =>
    have started := invariant.start host world _ here
    obtain ⟨⟨interrupted', last, world''⟩, looped, same⟩ := Option.map_eq_some_iff.mp returned
    cases same
    exact ⟨invariant.visited _ _ _ _ started,
      invariant.attached last false false (invariant.loop _ _ _ started looped)⟩
  | dumpCore => exact ⟨List.forall_mem_nil _, here⟩
  | snapshot => exact ⟨List.forall_mem_nil _, here⟩
  | attachOutput => exact ⟨List.forall_mem_nil _, invariant.attached _ true _ here⟩
  | attachInput => exact ⟨List.forall_mem_nil _, invariant.attached _ _ true here⟩
  | attachInterrupt => exact ⟨List.forall_mem_nil _, here⟩

/-- An invariant holds when a cycle begins, and after all calls. -/
theorem leads (invariant : Invariant holds) {calls : List Call} {rig last : Rig}
    {cycles : List Cpu} (led : Leads calls rig cycles last) (here : holds rig.cpu) :
    (∀ cpu ∈ cycles, holds cpu) ∧ holds last.cpu := by
  induction led with
  | nil => exact ⟨List.forall_mem_nil _, here⟩
  | cons first rest ih =>
    obtain ⟨now, between⟩ := invariant.does first here
    obtain ⟨later, after⟩ := ih between
    exact ⟨List.forall_mem_append.mpr ⟨now, later⟩, after⟩

end Invariant
end Lifecycle

/-! ## Bounds -/

namespace Core

/-- That many words of memory, and a program counter that is at most the length of the program or
the largest address. -/
structure Bounded (memoryWords : Nat) (program : Program) (core : Core) : Prop where
  memory : core.state.memory.size = memoryWords
  pc : core.state.pc ≤ max program.size 0xFFFF

/-- An instruction goes on with the next one, or at an address of sixteen bits. -/
theorem target_of_execute {operation : Operation} {instruction : Instruction}
    {state after : MachineState} {target : Nat}
    (h : Machine.execute operation instruction state = .ok (.proceed after target)) :
    after.memory = state.memory ∧ (target = state.pc + 1 ∨ target < 0x10000) := by
  have address := instruction.immediate.toNat_lt
  cases operation
  case ld =>
    simp only [Machine.execute] at h
    split at h
    · cases h
    · cases h
      exact ⟨rfl, .inl rfl⟩
  case st =>
    simp only [Machine.execute] at h
    split at h
    · cases h
    · cases h
  case div | mod =>
    simp only [Machine.execute] at h
    split at h
    · cases h
    · cases h
      exact ⟨rfl, .inl rfl⟩
  case call =>
    simp only [Machine.execute] at h
    split at h
    · cases h
      exact ⟨rfl, .inr address⟩
    · cases h
  case jmp =>
    cases h
    exact ⟨rfl, .inr address⟩
  case jz | jnz | jc | jnc =>
    cases h
    refine ⟨rfl, ?_⟩
    split
    · exact .inr address
    · exact .inl rfl
  case ret =>
    cases h
    exact ⟨rfl, .inr (UInt16.toNat_lt _)⟩
  all_goals
    cases h <;> exact ⟨rfl, .inl rfl⟩

namespace Bounded

variable {architecture : Architecture} {memoryWords : Nat} {program : Program} {core : Core}

/-- A completed instruction keeps the bounds if it was fetched from the program. -/
theorem complete {operation : Operation} {instruction : Instruction}
    (h : core.Bounded memoryWords program) (inside : core.state.pc < program.size)
    {effect : Machine.Effect core.state.memory.size}
    (executed : Machine.execute operation instruction core.state = .ok effect) (value : UInt16) :
    (Core.complete value core.state effect).Bounded memoryWords program := by
  have succ : core.state.pc + 1 ≤ max program.size 0xFFFF := by omega
  cases effect with
  | proceed after target =>
    obtain ⟨memory, target'⟩ := target_of_execute executed
    exact ⟨(congrArg Array.size memory).trans h.memory,
      show target ≤ max program.size 0xFFFF by omega⟩
  | store address stored => exact ⟨(Array.size_set address.isLt).trans h.memory, succ⟩
  | halt => exact ⟨h.memory, h.pc⟩
  | output shown => exact ⟨h.memory, succ⟩
  | input dest => exact ⟨h.memory, succ⟩

theorem cycle (h : core.Bounded memoryWords program) (value : UInt16) :
    (core.cycle architecture program value).Bounded memoryWords program := by
  by_cases terminal : core.status.isTerminal
  · rw [cycle_of_terminal terminal]
    exact h
  · cases fetched : program[core.state.pc]? with
    | none =>
      rw [cycle_of_pastEnd terminal fetched]
      exact ⟨h.memory, h.pc⟩
    | some instruction =>
      have inside := (Array.getElem?_eq_some_iff.mp fetched).1
      cases decoded : architecture.operation? instruction.opcode with
      | none =>
        rw [cycle_of_unknown terminal fetched decoded]
        exact ⟨h.memory, h.pc⟩
      | some operation =>
        rw [cycle_of_operation terminal fetched decoded, perform]
        cases executed : Machine.execute operation instruction core.state with
        | error fault => exact ⟨h.memory, h.pc⟩
        | ok effect => exact h.complete inside executed value

end Bounded
end Core

namespace Lifecycle

variable {architecture : Architecture} {config : Config}

/-- A processor of that table within the bounds of its configuration. -/
structure InBounds (architecture : Architecture) (config : Config) (cpu : Cpu) : Prop where
  table : cpu.architecture = architecture
  bounded : cpu.core.Bounded (min config.memoryWords Config.maxMemoryWords) cpu.program

theorem inBounds_new : InBounds architecture config (.new architecture config) :=
  ⟨rfl, by simp [Cpu.core, Cpu.new, MachineState.initial], Nat.zero_le _⟩

theorem inBounds_invariant : Invariant (InBounds architecture config) where
  load cpu program h := by
    unfold Cpu.load
    split
    · exact ⟨h.table, h.bounded.memory, Nat.zero_le _⟩
    · exact h
  step host world cpu h := by
    have left := Cpu.step_run_program host cpu world
    refine ⟨left.1.trans h.table, ?_⟩
    rw [Cpu.step_run_core, left.2]
    exact h.bounded.cycle _
  start host world cpu h := by
    unfold Cpu.start
    split
    · exact ⟨h.table, h.bounded.memory, h.bounded.pc⟩
    · exact h
  attached cpu observed supplied h := ⟨h.table, h.bounded.memory, h.bounded.pc⟩

/-- Whatever has been done with a new processor, it is within its bounds, and so it was whenever a
cycle began. -/
theorem Leads.inBounds {calls : List Call} {rig : Rig} {cycles : List Cpu}
    (led : Leads calls (.new architecture config) cycles rig) :
    (∀ cpu ∈ cycles, InBounds architecture config cpu) ∧ InBounds architecture config rig.cpu :=
  inBounds_invariant.leads led inBounds_new

end Lifecycle
end Minicomputer
