import Minicomputer.Proofs.Machine.Lifecycle

/-!
# Trajectories

A processor that nobody watches and nobody supplies depends on nobody: every value that it reads is
zero, so its status and state go through one sequence, given by the core with which it begins.

A loop goes along that sequence and stops at the first boundary between two cycles at which the
processor has stopped or an interrupt is requested.  This is said for all processors and hosts.

* `Core.alone` -- so many cycles when every value is zero;
* `Cpu.cycles_of_unattended` -- these are the cycles of a processor that nobody attends to;
* `Cpu.loop_eq_some_iff` -- where a loop ends.
-/

namespace Minicomputer
namespace Core

variable {architecture : Architecture} {program : Program} {core : Core}

/-! ## Cycles without values -/

/-- What so many cycles leave behind when every value that is read is zero. -/
def alone (architecture : Architecture) (program : Program) : Nat → Core → Core
  | 0, core => core
  | n + 1, core => alone architecture program n (core.cycle architecture program 0)

theorem alone_add (m n : Nat) :
    core.alone architecture program (m + n) =
      (core.alone architecture program m).alone architecture program n := by
  induction m generalizing core with
  | zero => rw [Nat.zero_add, alone]
  | succ m ih =>
    rw [Nat.succ_add, alone, alone]
    exact ih

theorem alone_of_terminal (terminal : core.status.isTerminal) (n : Nat) :
    core.alone architecture program n = core := by
  induction n with
  | zero => rfl
  | succ n ih => rw [alone, cycle_of_terminal terminal, ih]

/-- There is only one end. -/
theorem alone_eq_of_terminal {m n : Nat}
    (here : (core.alone architecture program m).status.isTerminal)
    (there : (core.alone architecture program n).status.isTerminal) :
    core.alone architecture program m = core.alone architecture program n := by
  rcases Nat.le_total m n with before | after
  · obtain ⟨later, rfl⟩ := Nat.exists_eq_add_of_le before
    rw [alone_add, alone_of_terminal here]
  · obtain ⟨later, rfl⟩ := Nat.exists_eq_add_of_le after
    rw [alone_add, alone_of_terminal there]

/-! ## Being ready and running are the same to a cycle -/

/-- The core of a processor that has been started, if it was not before. -/
def begun (core : Core) : Core :=
  if core.status = .ready then ⟨.running, core.state⟩ else core

theorem begun_of_ne_ready (started : core.status ≠ .ready) : core.begun = core :=
  if_neg started

@[simp] theorem state_begun : core.begun.state = core.state := by
  unfold begun
  split
  · rfl
  · rfl

@[simp] theorem isTerminal_begun : core.begun.status.isTerminal = core.status.isTerminal := by
  unfold begun
  split
  next ready =>
    rw [ready]
    rfl
  next => rfl

theorem status_begun_ne_ready : core.begun.status ≠ .ready := by
  unfold begun
  split
  next => exact nofun
  next started => exact started

theorem ne_ready_of_isTerminal {status : Status} (terminal : status.isTerminal) :
    status ≠ .ready := by
  rintro rfl
  cases terminal

/-- An instruction that is completed leaves the processor running or halted. -/
theorem status_complete_ne_ready (value : UInt16) (state : MachineState)
    (effect : Machine.Effect state.memory.size) :
    (complete value state effect).status ≠ .ready := by
  intro ready
  cases effect with
  | proceed | store | halt | output | input => cases ready

/-- A cycle starts the processor. -/
theorem status_cycle_ne_ready (value : UInt16) :
    (core.cycle architecture program value).status ≠ .ready := by
  by_cases terminal : core.status.isTerminal
  · rw [cycle_of_terminal terminal]
    exact ne_ready_of_isTerminal terminal
  · cases fetched : program[core.state.pc]? with
    | none =>
      rw [cycle_of_pastEnd terminal fetched]
      exact ne_ready_of_isTerminal rfl
    | some instruction =>
      cases decoded : architecture.operation? instruction.opcode with
      | none =>
        rw [cycle_of_unknown terminal fetched decoded]
        exact ne_ready_of_isTerminal rfl
      | some operation =>
        rw [cycle_of_operation terminal fetched decoded, perform]
        cases Machine.execute operation instruction core.state with
        | error fault => exact ne_ready_of_isTerminal rfl
        | ok effect => exact status_complete_ne_ready value core.state effect

theorem cycle_begun (value : UInt16) :
    core.begun.cycle architecture program value = core.cycle architecture program value := by
  by_cases ready : core.status = .ready
  · have going : ¬ core.status.isTerminal := by
      rw [ready]
      exact Bool.false_ne_true
    rw [begun, if_pos ready, cycle, cycle, if_neg going]
    rfl
  · rw [begun_of_ne_ready ready]

theorem begun_alone (n : Nat) :
    (core.alone architecture program n).begun = core.begun.alone architecture program n := by
  induction n generalizing core with
  | zero => rfl
  | succ n ih =>
    rw [alone, alone, ih, cycle_begun, begun_of_ne_ready (status_cycle_ne_ready 0)]

theorem status_alone_begun_ne_ready {n : Nat} :
    (core.begun.alone architecture program n).status ≠ .ready := by
  rw [← begun_alone]
  exact status_begun_ne_ready

theorem running_of_going {status : Status} (started : status ≠ .ready)
    (going : ¬ status.isTerminal) : status = .running := by
  cases status with
  | ready => exact absurd rfl started
  | running => rfl
  | halted => exact absurd rfl going
  | faulted fault => exact absurd rfl going

end Core

namespace Cpu

/-! ## Processors that nobody attends to -/

/-- Nobody is told about events, and nobody supplies values. -/
structure Unattended (cpu : Cpu) : Prop where
  observed : cpu.observed = false
  supplied : cpu.supplied = false

section

variable {cpu : Cpu} {σ : Type} (host : Host σ) (world : σ)

theorem Unattended.withCore (alone : cpu.Unattended) (core : Core) :
    (cpu.withCore core).Unattended :=
  ⟨alone.observed, alone.supplied⟩

theorem Unattended.detached_eq (alone : cpu.Unattended) : cpu.detached = cpu := by
  obtain ⟨architecture, interval, program, state, status, observed, supplied⟩ := cpu
  obtain ⟨rfl, rfl⟩ := alone
  rfl

theorem publish_of_unattended (alone : cpu.Unattended) (event : Event) :
    cpu.publish event = .done cpu := by
  rw [publish, alone.observed]
  rfl

theorem complete_of_unattended (alone : cpu.Unattended) (state : MachineState) (target : Nat) :
    ({ cpu with state } : Cpu).complete target =
      .done (cpu.withCore ⟨cpu.status, state.complete target⟩) := by
  unfold complete
  dsimp only
  split
  · exact publish_of_unattended (alone.withCore ⟨cpu.status, state.complete target⟩) _
  · rfl

theorem halt_of_unattended (alone : cpu.Unattended) :
    (cpu.halt.run host world).1 = cpu.withCore ⟨.halted, cpu.state.halt⟩ :=
  congrArg (fun told => (Dialogue.run host told _).1)
    (publish_of_unattended (alone.withCore ⟨.halted, cpu.state.halt⟩) (.halted cpu.state.halt))

theorem fail_of_unattended (alone : cpu.Unattended) (fault : Fault) :
    ((cpu.fail fault).run host world).1 = cpu.withCore ⟨.faulted fault, cpu.state⟩ :=
  congrArg (fun told => (Dialogue.run host told _).1)
    (publish_of_unattended (alone.withCore ⟨.faulted fault, cpu.state⟩) (.faulted fault cpu.state))

theorem perform_of_unattended (alone : cpu.Unattended) (running : cpu.status = .running)
    (operation : Operation) (instruction : Instruction) :
    ((cpu.perform operation instruction).run host world).1 =
      cpu.withCore (Core.perform operation instruction 0 cpu.state) := by
  unfold perform Core.perform
  dsimp only
  cases Machine.execute operation instruction cpu.state with
  | error fault => exact fail_of_unattended host world alone fault
  | ok effect =>
    cases effect with
    | proceed | store =>
      dsimp only
      rw [complete_of_unattended alone, running]
      rfl
    | halt =>
      exact halt_of_unattended host world (alone.withCore ⟨cpu.status, cpu.state.complete _⟩)
    | output value =>
      dsimp only
      rw [emit, alone.observed]
      show ((Cpu.complete { cpu with state := cpu.state } _).run host _).1 = _
      rw [complete_of_unattended alone, running]
      rfl
    | input dest =>
      dsimp only
      rw [read, alone.supplied]
      show ((Cpu.complete { cpu with state := cpu.state.setRegister dest 0 } _).run host _).1 = _
      rw [complete_of_unattended alone, running]
      rfl

theorem step_of_unattended (alone : cpu.Unattended) :
    (cpu.step.run host world).1 =
      cpu.withCore (cpu.core.cycle cpu.architecture cpu.program 0) := by
  unfold step
  by_cases terminal : cpu.status.isTerminal
  · rw [if_pos terminal, Core.cycle_of_terminal terminal]
    rfl
  · have going : ¬ cpu.core.status.isTerminal := terminal
    have running : ({ cpu with status := .running } : Cpu).Unattended :=
      ⟨alone.observed, alone.supplied⟩
    rw [if_neg terminal]
    dsimp only
    cases fetched : cpu.program[cpu.state.pc]? with
    | none =>
      rw [Core.cycle_of_pastEnd going fetched]
      exact halt_of_unattended host _ running
    | some instruction =>
      dsimp only
      cases decoded : cpu.architecture.operation? instruction.opcode with
      | none =>
        rw [Core.cycle_of_unknown going fetched decoded]
        exact fail_of_unattended host _ running _
      | some operation =>
        rw [Core.cycle_of_operation going fetched decoded]
        exact perform_of_unattended host _ running rfl operation instruction

theorem cycles_of_unattended (alone : cpu.Unattended) (n : Nat) :
    (cpu.cycles host n world).1 =
      cpu.withCore (cpu.core.alone cpu.architecture cpu.program n) := by
  induction n generalizing cpu world with
  | zero => rfl
  | succ n ih =>
    rw [cycles, step_of_unattended host world alone, ih _ (alone.withCore _)]
    rfl

end

/-! ## Where a loop ends -/

section

variable {σ : Type} {host : Host σ} {interruptRequested : σ → Bool} {cpu last : Cpu}
  {world world' : σ} {interrupted : Bool} {n : Nat}

/-- At the end of so many cycles, and not before, the processor has stopped or an interrupt is
requested.  A processor that has stopped is not interrupted. -/
structure LoopsFor (host : Host σ) (interruptRequested : σ → Bool) (cpu : Cpu) (world : σ)
    (n : Nat) (interrupted : Bool) : Prop where
  going : ∀ i < n, ¬ (cpu.cycles host i world).1.status.isTerminal
  unasked : ∀ i < n, interruptRequested (cpu.cycles host i world).2 = false
  stopped : interrupted = false → (cpu.cycles host n world).1.status.isTerminal
  asked : interrupted = true → ¬ (cpu.cycles host n world).1.status.isTerminal ∧
    interruptRequested (cpu.cycles host n world).2 = true

/-- A processor that has stopped executes nothing, and is not interrupted. -/
theorem loopsFor_iff_of_terminal (terminal : cpu.status.isTerminal) :
    LoopsFor host interruptRequested cpu world n interrupted ↔ n = 0 ∧ interrupted = false := by
  constructor
  · intro loops
    obtain rfl : n = 0 :=
      Nat.eq_zero_of_not_pos fun before => loops.going 0 before terminal
    exact ⟨rfl, Bool.eq_false_iff.mpr fun isInterrupted => (loops.asked isInterrupted).1 terminal⟩
  · rintro ⟨rfl, rfl⟩
    exact ⟨nofun, nofun, fun _ => terminal, nofun⟩

/-- A processor that finds a request at once executes nothing. -/
theorem loopsFor_iff_of_asked (going : ¬ cpu.status.isTerminal)
    (asked : interruptRequested world = true) :
    LoopsFor host interruptRequested cpu world n interrupted ↔ n = 0 ∧ interrupted = true := by
  constructor
  · intro loops
    obtain rfl : n = 0 := by
      apply Nat.eq_zero_of_not_pos
      intro before
      cases (loops.unasked 0 before).symm.trans asked
    exact ⟨rfl, Bool.ne_false_iff.mp fun uninterrupted => going (loops.stopped uninterrupted)⟩
  · rintro ⟨rfl, rfl⟩
    exact ⟨nofun, nofun, nofun, fun _ => ⟨going, asked⟩⟩

/-- Otherwise there is a cycle. -/
theorem not_loopsFor_zero (going : ¬ cpu.status.isTerminal)
    (unasked : interruptRequested world = false) :
    ¬ LoopsFor host interruptRequested cpu world 0 interrupted := by
  intro loops
  cases interrupted with
  | false => exact going (loops.stopped rfl)
  | true => cases unasked.symm.trans (loops.asked rfl).2

theorem loopsFor_succ_iff (going : ¬ cpu.status.isTerminal)
    (unasked : interruptRequested world = false) :
    LoopsFor host interruptRequested cpu world (n + 1) interrupted ↔
      LoopsFor host interruptRequested (cpu.step.run host world).1 (cpu.step.run host world).2 n
        interrupted := by
  constructor
  · intro loops
    refine ⟨?_, ?_, loops.stopped, loops.asked⟩
    · exact fun i before => loops.going (i + 1) (Nat.succ_lt_succ before)
    · exact fun i before => loops.unasked (i + 1) (Nat.succ_lt_succ before)
  · intro later
    refine ⟨?_, ?_, later.stopped, later.asked⟩
    · intro i before
      cases i with
      | zero => exact going
      | succ i => exact later.going i (Nat.lt_of_succ_lt_succ before)
    · intro i before
      cases i with
      | zero => exact unasked
      | succ i => exact later.unasked i (Nat.lt_of_succ_lt_succ before)

/-- If the loop is over at once, it comes back with what it began with. -/
theorem exists_loopsFor_zero_iff {answer : Bool} (fuel : Nat)
    (atOnce : ∀ n interrupted, LoopsFor host interruptRequested cpu world n interrupted ↔
      n = 0 ∧ interrupted = answer) :
    (∃ n ≤ fuel, LoopsFor host interruptRequested cpu world n interrupted ∧
        cpu.cycles host n world = (last, world')) ↔
      some (answer, cpu, world) = some (interrupted, last, world') := by
  constructor
  · rintro ⟨n, -, loops, ended⟩
    obtain ⟨rfl, rfl⟩ := (atOnce n interrupted).mp loops
    cases ended
    rfl
  · intro returned
    cases returned
    exact ⟨0, Nat.zero_le fuel, (atOnce 0 _).mpr ⟨rfl, rfl⟩, rfl⟩

/-- A loop comes back exactly if there is fuel for the cycles up to its end. -/
theorem loop_eq_some_iff {fuel : Nat} :
    loop host interruptRequested fuel cpu world = some (interrupted, last, world') ↔
      ∃ n ≤ fuel, LoopsFor host interruptRequested cpu world n interrupted ∧
        cpu.cycles host n world = (last, world') := by
  induction fuel generalizing cpu world with
  | zero =>
    unfold loop
    by_cases terminal : cpu.status.isTerminal
    · rw [if_pos terminal, exists_loopsFor_zero_iff 0 fun _ _ => loopsFor_iff_of_terminal terminal]
    · cases asked : interruptRequested world with
      | true =>
        rw [if_neg terminal, if_pos rfl,
          exists_loopsFor_zero_iff 0 fun _ _ => loopsFor_iff_of_asked terminal asked]
      | false =>
        rw [if_neg terminal, if_neg Bool.false_ne_true]
        simp [not_loopsFor_zero terminal asked]
  | succ fuel ih =>
    unfold loop
    by_cases terminal : cpu.status.isTerminal
    · rw [if_pos terminal, exists_loopsFor_zero_iff _ fun _ _ => loopsFor_iff_of_terminal terminal]
    · cases asked : interruptRequested world with
      | true =>
        rw [if_neg terminal, if_pos rfl,
          exists_loopsFor_zero_iff _ fun _ _ => loopsFor_iff_of_asked terminal asked]
      | false =>
        rw [if_neg terminal, if_neg Bool.false_ne_true]
        dsimp only
        rw [ih]
        constructor
        · rintro ⟨n, within, loops, ended⟩
          exact ⟨n + 1, Nat.succ_le_succ within, (loopsFor_succ_iff terminal asked).mpr loops, ended⟩
        · rintro ⟨n, within, loops, ended⟩
          cases n with
          | zero => exact absurd loops (not_loopsFor_zero terminal asked)
          | succ n =>
            exact ⟨n, Nat.le_of_succ_le_succ within, (loopsFor_succ_iff terminal asked).mp loops,
              ended⟩

/-- There are as many cycles as are needed to get to the end. -/
theorem length_visited {fuel : Nat}
    (loops : LoopsFor host interruptRequested cpu world n interrupted) (within : n ≤ fuel) :
    (cpu.visited host interruptRequested fuel world).length = n := by
  induction n generalizing cpu world fuel with
  | zero =>
    unfold visited
    cases interrupted with
    | false => rw [if_pos (show cpu.status.isTerminal from loops.stopped rfl), List.length_nil]
    | true =>
      obtain ⟨going, asked⟩ := loops.asked rfl
      rw [if_neg (show ¬ cpu.status.isTerminal from going),
        if_pos (show interruptRequested world = true from asked), List.length_nil]
  | succ n ih =>
    obtain ⟨fuel, rfl⟩ := Nat.exists_eq_add_one_of_ne_zero (Nat.ne_zero_of_lt within)
    have going : ¬ cpu.status.isTerminal := loops.going 0 (Nat.succ_pos n)
    have unasked : interruptRequested world = false := loops.unasked 0 (Nat.succ_pos n)
    unfold visited
    rw [if_neg going, unasked, if_neg Bool.false_ne_true, List.length_cons,
      ih ((loopsFor_succ_iff going unasked).mp loops) (Nat.le_of_succ_le_succ within)]

end
end Cpu
end Minicomputer
