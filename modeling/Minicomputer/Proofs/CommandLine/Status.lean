import Minicomputer.Proofs.CommandLine.ImageRun
import Minicomputer.Proofs.Console.Interleaving
import Minicomputer.Proofs.Machine.Trajectory

/-!
# The exit status of a run

Once a program is executed, the exit status depends on what the processor comes to and, at a
console, on whether the console gives up.

* `CommandLine.statusAfter` -- the exit status, as the run has it;
* `CommandLine.exitStatus_ranProgram` -- it is the one that is reported;
* `CommandLine.statusAfter_eq_sequential?`, `CommandLine.exitStatus_of_complete` -- at a console it
  does not depend on how the processor and the console take turns.
-/

namespace Minicomputer

/-! ## Runs that nobody interrupts -/

/-- A run is interrupted only if somebody asks for it. -/
theorem Cpu.interrupted_eq_false {σ : Type} {host : Host σ} {fuel : Nat} {cpu last : Cpu}
    {world world' : σ} {interrupted : Bool}
    (returned : cpu.run host (fun _ => false) fuel world = some (interrupted, last, world')) :
    interrupted = false := by
  obtain ⟨⟨interrupted', last', world''⟩, looped, same⟩ := Option.map_eq_some_iff.mp returned
  cases same
  obtain ⟨n, -, loops, -⟩ := loop_eq_some_iff.mp looped
  cases interrupted with
  | false => rfl
  | true => cases (loops.asked rfl).2

namespace CommandLine

/-! ## How a run ends -/

/-- The exit status by what the processor has come to. -/
def statusOf : Status → Nat
  | .faulted _ => 2
  | .ready | .running | .halted => 0

/-- The exit status once a program has been executed: 1 if the console has given up, otherwise 2 if
the processor has ended with a fault, and otherwise 0.  There is none if the run does not end. -/
def statusAfter (input : Bytes) (options : Options) (program : Program) : Option Nat :=
  let cpu := Cpu.boot .standard options.config program
  if options.has .headless then
    (cpu.run .silent (fun _ => false) Cpu.patience ()).map fun (_, last, _) => statusOf last.status
  else
    -- A console does not look at what has been printed before, so it may begin with nothing.
    ((cpu.attached true true).run Conversation.host (fun _ => false) Cpu.patience
      (.new (.new input .unlimited))).map fun (_, last, conversation) =>
        if conversation.console.hasFailed then 1 else statusOf last.status

theorem exitStatus_ran (cpu : Cpu) (dump : Option CoreDump) :
    (Conclusion.ran (cpu.summary false) dump).exitStatus = statusOf cpu.status := by
  have going : ¬ (cpu.summary false).interrupted = true := Bool.false_ne_true
  rw [Conclusion.exitStatus, if_neg going]
  unfold statusOf Cpu.summary
  cases cpu.status with
  | ready | running | halted | faulted _ => rfl

section

variable (options : Options) (cpu : Cpu) (input : Bytes) (printed : String)

theorem exitStatus_runHeadless :
    (runHeadless options cpu printed).map (·.conclusion.exitStatus) =
      (cpu.run .silent (fun _ => false) Cpu.patience ()).map fun (_, last, _) =>
        statusOf last.status := by
  unfold runHeadless
  rw [Option.map_map]
  refine Option.map_congr fun ⟨interrupted, last, world⟩ returned => ?_
  obtain rfl := Cpu.interrupted_eq_false returned
  exact exitStatus_ran last (if options.has .debug then some last.dumpCore else none)

theorem exitStatus_runAtConsole :
    (runAtConsole cpu input printed).map (·.conclusion.exitStatus) =
      ((cpu.attached true true).run Conversation.host (fun _ => false) Cpu.patience
        (.new (.new input .unlimited))).map fun (_, last, conversation) =>
          if conversation.console.hasFailed then 1 else statusOf last.status := by
  -- What has been printed before makes no difference.
  have behind := runAtConsole_behind printed "" cpu input
  have nothing : (Output.unlimited.print (Text.toBytes "")).2 = .unlimited := by decide
  rw [String.append_empty] at behind
  rw [behind, Option.map_map]
  unfold runAtConsole Cpu.converse
  dsimp only
  rw [nothing, Option.map_map, Option.map_map]
  congr 1
  funext ⟨interrupted, last, ⟨lines, output, phase⟩, replies, entries⟩
  cases phase with
  | answering => exact exitStatus_ran last none
  | printing => exact exitStatus_ran last none
  | failed cause => rfl

theorem exitStatus_ranProgram (program : Program) :
    (ranProgram input options program printed).map (·.conclusion.exitStatus) =
      statusAfter input options program := by
  unfold ranProgram statusAfter
  dsimp only
  split
  · exact exitStatus_runHeadless options _ _
  · exact exitStatus_runAtConsole _ input _

end

/-! ## Taking turns -/

/-- The setting in which a program is executed at the console. -/
def setting (input : Bytes) (options : Options) (program : Program) : Setting :=
  ⟨.standard, program, options.config.memoryWords, input, .unlimited⟩

/-- The exit status when this is what is left of a run at the console. -/
def exitStatusOf (ending : Ending) : Nat :=
  match ending.outcome with
  | .error _ => 1
  | .ok _ => statusOf ending.status

section

variable {input : Bytes} {options : Options} {program : Program}
  (atConsole : options.has .headless = false)

include atConsole

/-- At the console the run is the one in which every event is handled when it is published. -/
theorem statusAfter_eq_sequential? :
    statusAfter input options program =
      ((setting input options program).sequential? options.config.snapshotInterval
        Cpu.patience).map exitStatusOf := by
  have displayed : ¬ options.has .headless = true := Bool.eq_false_iff.mp atConsole
  unfold statusAfter Setting.sequential?
  dsimp only
  rw [if_neg displayed, Option.map_map]
  congr 1
  funext ⟨interrupted, last, ⟨lines, output, phase⟩, replies, entries⟩
  cases phase with
  | answering | printing | failed _ => rfl

/-- The exit status is that of every order in which the processor and the console can act, whatever
copies of the state are sent and however many events may wait. -/
theorem exitStatus_of_complete {status : Nat}
    (after : statusAfter input options program = some status) {interval : Nat}
    {capacity : Option Nat} {last : Duet}
    (complete : ((setting input options program).duet interval capacity).Complete last) :
    last.ending?.map exitStatusOf = some status := by
  rw [statusAfter_eq_sequential? atConsole] at after
  obtain ⟨ending, returned, status_eq⟩ := Option.map_eq_some_iff.mp after
  obtain ⟨-, ends⟩ := Setting.agrees_of_sequential? returned interval capacity
  rw [ends last complete, Option.map_some, status_eq]

end

end CommandLine
end Minicomputer
