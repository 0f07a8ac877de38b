import Minicomputer.Architecture.Standard
import Minicomputer.Cpu.Session
import Minicomputer.Proofs.Machine.Core

/-!
# Watching a processor

A processor turns to whoever watches it in the middle of its cycles: it publishes what it shows,
copies of its state, and how it ends; and when it finds that nobody listens any more it goes on
without.  None of this has an influence on status and state.  Two processors that have started
alike and read the same values are alike after every number of cycles, whatever the interval between
copies is, whoever is attached, and at which event, if any, somebody hangs up.

* `Cpu.Alike` -- processors that differ only in this;
* `Cpu.cycles_alike` -- they stay alike as long as they read the same values;
* `Host.Barren` -- a host from which nothing comes, so that every value is zero;
* `Cpu.observation_leaves_no_trace` -- the result, and the case of an observer who has left before
  the first cycle.
-/

namespace Minicomputer
namespace Cpu

section

variable {σ : Type} (host : Host σ)

/-! ## One cycle more -/

theorem cycles_succ (n : Nat) (cpu : Cpu) (world : σ) :
    cpu.cycles host (n + 1) world =
      (cpu.cycles host n world).1.step.run host (cpu.cycles host n world).2 := by
  induction n generalizing cpu world with
  | zero => rfl
  | succ n ih => exact ih _ _

section

variable {β : Type} (yield? : Cpu → σ → Option β)

/-- What the last cycle yields comes last. -/
theorem collected_succ (n : Nat) (cpu : Cpu) (world : σ) :
    cpu.collected host yield? (n + 1) world =
      cpu.collected host yield? n world ++
        (yield? (cpu.cycles host n world).1 (cpu.cycles host n world).2).toList := by
  induction n generalizing cpu world with
  | zero => exact List.append_nil _
  | succ n ih =>
    rw [collected, ih, ← List.append_assoc]
    rfl

/-- What has been collected was yielded in one of the cycles. -/
theorem exists_cycle_of_mem_collected {n : Nat} {cpu : Cpu} {world : σ} {element : β}
    (member : element ∈ cpu.collected host yield? n world) :
    ∃ i < n, yield? (cpu.cycles host i world).1 (cpu.cycles host i world).2 = some element := by
  induction n with
  | zero => cases member
  | succ n ih =>
    rw [collected_succ] at member
    rcases List.mem_append.mp member with earlier | now
    · obtain ⟨i, before, yielded⟩ := ih earlier
      exact ⟨i, Nat.lt_succ_of_lt before, yielded⟩
    · exact ⟨n, Nat.lt_succ_self n, Option.mem_toList.mp now⟩

end

theorem valuesRead_succ (n : Nat) (cpu : Cpu) (world : σ) :
    cpu.valuesRead host (n + 1) world =
      cpu.valuesRead host n world ++
        ((cpu.cycles host n world).1.valueRead? host (cpu.cycles host n world).2).toList :=
  collected_succ host (valueRead? host) n cpu world

/-- Whether a cycle reads a value depends on nobody else. -/
theorem isSome_valueRead?_iff {cpu : Cpu} {world : σ} :
    (cpu.valueRead? host world).isSome = true ↔
      ¬ cpu.status.isTerminal ∧ ∃ instruction, cpu.program[cpu.state.pc]? = some instruction ∧
        cpu.architecture.operation? instruction.opcode = some .input := by
  by_cases terminal : cpu.status.isTerminal
  · simp [valueRead?_of_terminal host terminal, terminal]
  · cases fetched : cpu.program[cpu.state.pc]? with
    | none => simp [valueRead?_of_pastEnd host fetched]
    | some instruction =>
      by_cases decoded : cpu.architecture.operation? instruction.opcode = some .input
      · simp [valueRead?_of_input host terminal fetched decoded, terminal, decoded]
      · simp [valueRead?_of_ne_input host fetched decoded, decoded]

/-- The value that is read the `k`-th time, counted from zero. -/
def Yields (cpu : Cpu) (world : σ) (k : Nat) (value : UInt16) : Prop :=
  ∃ n, (cpu.valuesRead host n world)[k]? = some value

end

/-! ## Processors that differ in who is around -/

/-- The same table, program, status and state.  Nothing is said about the interval between copies of
the state and about who is attached. -/
structure Alike (cpu cpu' : Cpu) : Prop where
  architecture_eq : cpu.architecture = cpu'.architecture
  program_eq : cpu.program = cpu'.program
  core_eq : cpu.core = cpu'.core

section

variable {cpu cpu' : Cpu} {σ σ' : Type} (host : Host σ) (host' : Host σ') (world : σ) (world' : σ')

theorem Alike.isSome_valueRead? (alike : cpu.Alike cpu') :
    (cpu.valueRead? host world).isSome = (cpu'.valueRead? host' world').isSome := by
  have status : cpu.status = cpu'.status := congrArg Core.status alike.core_eq
  have state : cpu.state = cpu'.state := congrArg Core.state alike.core_eq
  rw [Bool.eq_iff_iff, isSome_valueRead?_iff, isSome_valueRead?_iff, status, state,
    alike.program_eq, alike.architecture_eq]

theorem Alike.step (alike : cpu.Alike cpu')
    {world : σ} {world' : σ'} (same : cpu.valueRead? host world = cpu'.valueRead? host' world') :
    (cpu.step.run host world).1.Alike (cpu'.step.run host' world').1 := by
  have left := step_run_program host cpu world
  have right := step_run_program host' cpu' world'
  refine ⟨?_, ?_, ?_⟩
  · rw [left.1, right.1, alike.architecture_eq]
  · rw [left.2, right.2, alike.program_eq]
  · rw [step_run_core, step_run_core, alike.core_eq, alike.architecture_eq, alike.program_eq, same]

/-- If both have read the same so far and both read a value now or both do not, they read the same
now. -/
theorem valueRead?_eq_of_yields
    (same : ∀ k value value', cpu.Yields host world k value → cpu'.Yields host' world' k value' →
      value = value') {n : Nat}
    (before : cpu.valuesRead host n world = cpu'.valuesRead host' n world')
    (both : ((cpu.cycles host n world).1.valueRead? host (cpu.cycles host n world).2).isSome =
      ((cpu'.cycles host' n world').1.valueRead? host' (cpu'.cycles host' n world').2).isSome) :
    (cpu.cycles host n world).1.valueRead? host (cpu.cycles host n world).2 =
      (cpu'.cycles host' n world').1.valueRead? host' (cpu'.cycles host' n world').2 := by
  cases read : (cpu.cycles host n world).1.valueRead? host (cpu.cycles host n world).2 with
  | none =>
    rw [read] at both
    exact (Option.isNone_iff_eq_none.mp (by simpa using both.symm)).symm
  | some value =>
    rw [read] at both
    obtain ⟨value', read'⟩ := Option.isSome_iff_exists.mp both.symm
    rw [read']
    -- This is the value after all that both have read before.
    refine congrArg some (same (cpu.valuesRead host n world).length value value' ?_ ?_)
    · refine ⟨n + 1, ?_⟩
      rw [valuesRead_succ, read]
      simp
    · refine ⟨n + 1, ?_⟩
      rw [valuesRead_succ, read', before]
      simp

/-- Processors that read the same values stay alike, and they have read as many. -/
theorem cycles_alike (alike : cpu.Alike cpu')
    (same : ∀ k value value', cpu.Yields host world k value → cpu'.Yields host' world' k value' →
      value = value') (n : Nat) :
    (cpu.cycles host n world).1.Alike (cpu'.cycles host' n world').1 ∧
      cpu.valuesRead host n world = cpu'.valuesRead host' n world' := by
  induction n with
  | zero => exact ⟨alike, rfl⟩
  | succ n ih =>
    obtain ⟨alike', values⟩ := ih
    have now := valueRead?_eq_of_yields host host' world world' same values
      (alike'.isSome_valueRead? host host' _ _)
    rw [cycles_succ, cycles_succ, valuesRead_succ, valuesRead_succ, values, now]
    exact ⟨alike'.step host host' now, rfl⟩

end
end Cpu

/-! ## Hosts from which nothing comes -/

/-- As long as the condition holds there are no values, and it always holds. -/
structure Host.Barren {σ : Type} (host : Host σ) (holds : σ → Prop) : Prop where
  note : ∀ n world, holds world → holds (host.note n world)
  publish : ∀ event world, holds world → holds (host.publish event world).2
  receive : ∀ world, holds world → (host.receive world).1 = none ∧ holds (host.receive world).2

namespace Host.Barren

variable {σ : Type} {host : Host σ} {holds : σ → Prop} {world : σ}

theorem maintains (barren : host.Barren holds) : host.Maintains holds :=
  ⟨barren.note, barren.publish, fun world here => (barren.receive world here).2⟩

theorem run (barren : host.Barren holds) {α : Type} (dialogue : Dialogue α)
    (here : holds world) : holds (dialogue.run host world).2 :=
  barren.maintains.dialogue dialogue here

theorem read_run (barren : host.Barren holds) (cpu : Cpu) (here : holds world) :
    (cpu.read.run host world).1.1 = 0 := by
  unfold Cpu.read
  split
  · have asked := barren.run (cpu.publish .inputRequested) here
    have nothing := (barren.receive _ asked).1
    rw [Dialogue.run_bind, Dialogue.run]
    rcases received : host.receive ((cpu.publish .inputRequested).run host world).2 with
      ⟨answer, world'⟩
    rw [received] at nothing
    obtain rfl : answer = none := nothing
    rfl
  · rfl

theorem valueRead? (barren : host.Barren holds) (cpu : Cpu) (here : holds world) :
    ∀ value ∈ cpu.valueRead? host world, value = 0 := by
  intro value read
  unfold Cpu.valueRead? at read
  split at read
  · cases read
  · split at read
    · cases read
    · split at read
      · cases read
        exact barren.read_run _ (barren.note _ _ here)
      · cases read

theorem valuesRead (barren : host.Barren holds) (n : Nat) (cpu : Cpu) (here : holds world) :
    ∀ value ∈ cpu.valuesRead host n world, value = 0 := by
  induction n generalizing cpu world with
  | zero => exact List.forall_mem_nil _
  | succ n ih =>
    intro value member
    rcases List.mem_append.mp member with now | later
    · exact barren.valueRead? cpu here value (Option.mem_toList.mp now)
    · exact ih _ (barren.run _ here) value later

theorem yields (barren : host.Barren holds) {cpu : Cpu} (here : holds world) {k : Nat}
    {value : UInt16} (read : cpu.Yields host world k value) : value = 0 := by
  obtain ⟨n, nth⟩ := read
  exact barren.valuesRead n cpu here value (List.mem_of_getElem? nth)

end Host.Barren

/-! ## Sessions -/

namespace Connections

/-- Nothing is on its way to the processor, and nobody can send anything. -/
def Dry (connections : Connections) : Prop :=
  connections.input.queue.pop? = none ∧ connections.input.sending = false

theorem receive_of_dry {connections : Connections} (dry : connections.Dry) :
    connections.receive =
      (none, { connections with input := connections.input.closeReceiver }) := by
  unfold receive Channel.receive
  rw [dry.1, dry.2]
  rfl

theorem host_barren : host.Barren Dry where
  note _ _ dry := dry
  publish event connections dry := by
    show (connections.publish event).2.Dry
    unfold publish
    split
    · exact dry
    · exact dry
  receive connections dry := by
    show connections.receive.1 = none ∧ connections.receive.2.Dry
    rw [receive_of_dry dry]
    exact ⟨rfl, rfl, dry.2⟩

end Connections

namespace Session

/-- A session with a program and nothing attached. -/
def headless (architecture : Architecture) (config : Config) (program : Program) : Session :=
  ⟨.boot architecture config program, .closed, none⟩

/-- A session with a program and somebody who has left again, on both sides, before the first
cycle. -/
def deserted (architecture : Architecture) (config : Config) (program : Program) : Session :=
  (headless architecture config program).attachOutput.attachInput.hangUp.closeInput

theorem steps_cpu (session : Session) (n : Nat) :
    (session.steps n).cpu = (session.cpu.cycles Connections.host n session.connections).1 := by
  induction n generalizing session with
  | zero => rfl
  | succ n ih => exact ih session.step

end Session

namespace Cpu

/-- Two processors with the same program and memory that read the same values have the same status
and state after every number of cycles, whatever their intervals between copies of the state are,
whoever is attached, and however they are answered.  One of them may have nobody around, and the
other somebody who has left before the first cycle; then they read the same values. -/
theorem observation_leaves_no_trace (architecture : Architecture) (program : Program)
    (memoryWords interval interval' : Nat) :
    (∀ (observed observed' supplied supplied' : Bool) (σ σ' : Type) (host : Host σ)
        (host' : Host σ') (world : σ) (world' : σ'),
      let cpu := (boot architecture ⟨memoryWords, interval⟩ program).attached observed supplied
      let cpu' := (boot architecture ⟨memoryWords, interval'⟩ program).attached observed' supplied'
      (∀ k value value', cpu.Yields host world k value → cpu'.Yields host' world' k value' →
          value = value') →
        ∀ n, (cpu.cycles host n world).1.status = (cpu'.cycles host' n world').1.status ∧
          (cpu.cycles host n world).1.state = (cpu'.cycles host' n world').1.state) ∧
      ∀ n,
        let headless := (Session.headless architecture ⟨memoryWords, interval⟩ program).steps n
        let deserted := (Session.deserted architecture ⟨memoryWords, interval'⟩ program).steps n
        headless.cpu.status = deserted.cpu.status ∧ headless.cpu.state = deserted.cpu.state := by
  have alike (observed observed' supplied supplied' : Bool) :
      ((boot architecture ⟨memoryWords, interval⟩ program).attached observed supplied).Alike
        ((boot architecture ⟨memoryWords, interval'⟩ program).attached observed' supplied') :=
    ⟨rfl, rfl, rfl⟩
  refine ⟨?_, ?_⟩
  · intro observed observed' supplied supplied' σ σ' host host' world world' cpu cpu' same n
    have core := (cycles_alike host host' world world'
      (alike observed observed' supplied supplied') same n).1.core_eq
    exact ⟨congrArg Core.status core, congrArg Core.state core⟩
  · intro n headless deserted
    have core := (cycles_alike Connections.host Connections.host
      (Session.headless architecture ⟨memoryWords, interval⟩ program).connections
      (Session.deserted architecture ⟨memoryWords, interval'⟩ program).connections
      (alike false true false true) ?_ n).1.core_eq
    · rw [show headless.cpu = _ from Session.steps_cpu _ n,
        show deserted.cpu = _ from Session.steps_cpu _ n]
      exact ⟨congrArg Core.status core, congrArg Core.state core⟩
    · -- What both read is zero.
      intro k value value' read read'
      have zero : value = 0 := Connections.host_barren.yields ⟨rfl, rfl⟩ read
      have zero' : value' = 0 := Connections.host_barren.yields ⟨rfl, rfl⟩ read'
      exact zero.trans zero'.symm

/-- A program that reads a value and shows it, with an observer who gets a copy of every state and
with nobody who is told about anything. -/
theorem observation_leaves_no_trace_echo :
    let program : Program := #[.nullary 0x60, .nullary 0x61, .nullary 0x01]
    let cpu := (boot .standard ⟨0, 1⟩ program).attached true true
    let cpu' := (boot .standard ⟨0, 0⟩ program).attached false true
    let host := Host.answering fun _ => 7
    (∀ k value value', cpu.Yields host 0 k value → cpu'.Yields host 0 k value' → value = value') ∧
      (∀ n, (cpu.cycles host n 0).1.state = (cpu'.cycles host n 0).1.state) ∧
        (cpu.cycles host 3 0).1.state.register .first = 7 := by
  intro program cpu cpu' host
  have same (k : Nat) (value value' : UInt16) (read : cpu.Yields host 0 k value)
      (read' : cpu'.Yields host 0 k value') : value = value' := by
    obtain ⟨n, nth⟩ := read
    obtain ⟨n', nth'⟩ := read'
    exact (valuesRead_answering _ rfl nth).trans (valuesRead_answering _ rfl nth').symm
  refine ⟨same, fun n => ?_, by decide +kernel⟩
  exact ((observation_leaves_no_trace .standard program 0 1 0).1 true false true true _ _ host host
    0 0 same n).2

end Cpu
end Minicomputer
