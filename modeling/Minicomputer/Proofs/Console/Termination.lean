import Minicomputer.Proofs.Console.Heading

/-!
# A processor and a console come to an end

The console by itself can only handle the events that are there, and a cycle by itself takes so many
turns and no more.  So if the cycles come to an end, the moves of the two parties do, in whatever
order they are made.

* `Engine.acc_onward` -- the way of the processor to the end of a cycle;
* `Duet.Terminating` -- there is no infinite sequence of moves;
* `Duet.terminating_of_ends` -- the result.
-/

namespace Minicomputer

/-! ## The way to the end of a cycle -/

namespace Engine

theorem acc_closing (cpu : Cpu) : Acc (fun next here => Onward here next) (closing cpu) := by
  refine Acc.intro _ fun next onward => ?_
  cases onward
  -- Nothing comes after that.
  exact Acc.intro _ fun next onward => by cases onward

/-- However it is answered, the processor comes to the end of its cycle. -/
theorem acc_busy (dialogue : Dialogue Cpu) :
    Acc (fun next here => Onward here next) (busy dialogue) := by
  induction dialogue with
  | done cpu =>
    refine Acc.intro _ fun next onward => ?_
    cases onward
    exact acc_closing _
  | note n following ih =>
    refine Acc.intro _ fun next onward => ?_
    cases onward
    exact ih
  | publish event following ih =>
    refine Acc.intro _ fun next onward => ?_
    cases onward with
    | publish received => exact ih received
  | receive following ih =>
    refine Acc.intro _ fun next onward => ?_
    cases onward with
    | receive value => exact ih value

theorem acc_onward (engine : Engine) : Acc (fun next here => Onward here next) engine := by
  cases engine with
  | busy dialogue => exact acc_busy dialogue
  | closing cpu => exact acc_closing cpu
  | closed cpu => exact Acc.intro _ fun next onward => by cases onward

end Engine

/-! ## Moves -/

/-- How many moves the console can still make, if there are no events. -/
def Display.rank : Display → Nat
  | gone => 0
  | hungUp => 1
  | leaving => 2
  | waiting => 3
  | handling _ => 4

namespace Duet

variable {here next : Duet} {origin : Cpu} {scene : Scene}

/-- How much the console can still do by itself. -/
def work (duet : Duet) : Nat :=
  3 * duet.events.queue.toList.length + duet.display.rank

theorem ConsoleMove.work_lt (move : ConsoleMove here next) : next.work < here.work := by
  unfold work
  cases move with
  | @take event events ready received =>
    obtain ⟨order, -⟩ := Channel.of_message received
    rw [ready, order, List.length_cons]
    show 3 * events.queue.toList.length + 4 < 3 * (events.queue.toList.length + 1) + 3
    omega
  | @respond event reply console handling handled =>
    rw [handling]
    apply Nat.add_lt_add_left
    dsimp only
    split
    · show 2 < 4
      omega
    · show 3 < 4
      omega
  | finish ready received =>
    obtain ⟨-, -, rfl⟩ := Channel.of_ended received
    rw [ready]
    exact Nat.lt_succ_self _
  | hangUp leaving =>
    rw [leaving]
    show 3 * 0 + 1 < 3 * here.events.queue.toList.length + 2
    omega
  | leave hungUp =>
    rw [hungUp]
    exact Nat.lt_succ_self _

/-- There is no infinite sequence of moves from here. -/
def Terminating (duet : Duet) : Prop :=
  Acc (fun next here => Move here next) duet

/-- The console cannot go on forever while the processor does nothing. -/
theorem terminating_of_processor {engine : Engine}
    (advance : ∀ here next, here.engine = engine → here.Wired → here.Heading origin scene →
      ProcessorMove here next → next.Terminating)
    {duet : Duet} (same : duet.engine = engine) (wired : duet.Wired)
    (heading : duet.Heading origin scene) : duet.Terminating := by
  induction size : duet.work using Nat.strongRecOn generalizing duet with
  | ind n ih =>
    refine Acc.intro duet fun next move => ?_
    cases move with
    | processor move => exact advance duet next same wired heading move
    | console move =>
      have engine_eq := (move.talk_eq wired).1
      exact ih next.work (size ▸ move.work_lt) (engine_eq.trans same) (move.wired wired)
        (move.heading wired heading) rfl

/-- There is no infinite sequence of moves from a configuration that leads to a scene, if there is
none from those that lead to the next one. -/
theorem terminating_of_later
    (later : ¬ scene.core.status.isTerminal → ∀ {duet : Duet}, duet.Wired →
      duet.Heading origin (scene.cycle origin.architecture origin.program) → duet.Terminating)
    (wired : here.Wired) (heading : here.Heading origin scene) : here.Terminating := by
  -- The induction is on the way of the processor to the end of its cycle.
  have onward := here.engine.acc_onward
  generalize same : here.engine = engine at onward
  induction onward generalizing here with
  | intro engine _ ih =>
    refine terminating_of_processor ?_ same wired heading
    intro here next same wired heading move
    rcases move.heading wired heading with ⟨onward, stays⟩ | ⟨going, cycled⟩
    · exact ih next.engine (same ▸ onward) (move.wired wired) stays rfl
    · exact later going (move.wired wired) cycled

/-- If the cycles come to an end, so do the moves, in whatever order they are made. -/
theorem terminating_of_ends {last : Scene}
    (ends : Scene.Ends origin.architecture origin.program scene last) (wired : here.Wired)
    (heading : here.Heading origin scene) : here.Terminating := by
  induction ends generalizing here with
  | stopped terminal =>
    exact terminating_of_later (fun going => absurd terminal going) wired heading
  | cycle going later ih => exact terminating_of_later (fun _ => ih) wired heading

end Duet
end Minicomputer
