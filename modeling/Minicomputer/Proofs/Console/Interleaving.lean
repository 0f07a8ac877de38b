import Mathlib.Control.Monad.Basic
import Minicomputer.Architecture.Standard
import Minicomputer.Proofs.Console.Termination

/-!
# The order of moves does not matter

A processor and a console that act at the same time may do so in many orders.  The processor may run
far ahead, wait at a full channel, or publish to a console that has given up; and how many copies of
the state are on their way depends on the interval between them.  All of this leaves no trace: every
sequence of moves that cannot be continued ends like the run in which the console handles every
event at the moment it is published.

* `Setting` -- a program, its machine, and what is on both sides of the console;
* `Setting.interleavings_agree` -- the result.
-/

namespace Minicomputer

/-- What is left at the end of a run: the machine, and how the console was left. -/
structure Ending where
  state : MachineState
  status : Status
  outcome : Except ConsoleFailure ConsoleOutcome
  bytes : Bytes
  deriving DecidableEq

namespace Ending

def of (core : Core) (console : Console) : Ending :=
  ⟨core.state, core.status, console.outcome, console.output.bytes⟩

end Ending

namespace Duet

/-- What is left if both have come to their end. -/
def ending? (duet : Duet) : Option Ending :=
  match duet.engine, duet.display with
  | .closed cpu, .gone => some (.of cpu.core duet.console)
  | _, _ => none

/-- A sequence of moves leads from one configuration to the other, where it cannot be continued. -/
structure Complete (first last : Duet) : Prop where
  reached : Relation.ReflTransGen Move first last
  stuck : ∀ next, ¬ Move last next

/-- A sequence of moves that has to end can be completed. -/
theorem Terminating.exists_complete {duet : Duet} (terminating : duet.Terminating) :
    ∃ last, duet.Complete last := by
  induction terminating with
  | intro here _ ih =>
    by_cases stuck : ∀ next, ¬ Move here next
    · exact ⟨here, .refl, stuck⟩
    · obtain ⟨next, move⟩ := Classical.not_forall_not.mp stuck
      obtain ⟨last, complete⟩ := ih next move
      exact ⟨last, .head move complete.reached, complete.stuck⟩

variable {origin : Cpu} {scene : Scene} {first last : Duet}

/-- The scene that a configuration is heading for is one of those from the first scene on. -/
theorem heading_of_reached (reached : Relation.ReflTransGen Move first last)
    (wired : first.Wired) (heading : first.Heading origin scene) :
    last.Wired ∧ ∃ scene', last.Heading origin scene' ∧
      ∀ final, Scene.Ends origin.architecture origin.program scene' final →
        Scene.Ends origin.architecture origin.program scene final := by
  induction reached with
  | refl => exact ⟨wired, scene, heading, fun _ ends => ends⟩
  | tail _ move ih =>
    obtain ⟨wired', scene', heading', onward⟩ := ih
    cases move with
    | console move => exact ⟨move.wired wired', scene', move.heading wired' heading', onward⟩
    | processor move =>
      refine ⟨move.wired wired', ?_⟩
      rcases move.heading wired' heading' with ⟨-, same⟩ | ⟨going, later⟩
      · exact ⟨scene', same, onward⟩
      · exact ⟨_, later, fun final ends => onward final (.cycle going ends)⟩

/-- Where the moves end, so do the cycles. -/
theorem Complete.ends (complete : first.Complete last) (wired : first.Wired)
    (heading : first.Heading origin scene) :
    ∃ final, Scene.Ends origin.architecture origin.program scene final ∧
      last.ending? = some (.of final.core final.console) := by
  obtain ⟨wired', scene', heading', onward⟩ := heading_of_reached complete.reached wired heading
  obtain ⟨⟨cpu, closed⟩, gone⟩ := finished_of_stuck wired' heading' complete.stuck
  unfold Heading at heading'
  rw [closed] at heading'
  obtain ⟨rfl, terminal⟩ := heading'
  refine ⟨_, onward _ (.stopped terminal), ?_⟩
  -- Nothing is left that the console could handle.
  have handled : last.talk.console = last.console := by
    rcases wired'.left (by rw [gone]; rfl) with failed | ⟨-, empty⟩
    · rw [talk_of_hasFailed failed]
    · rw [talk, unhandled, gone, empty]
      rfl
  rw [ending?, closed, gone, handled]

end Duet

/-! ## Settings -/

/-- A program, its machine, what is typed at the console, and where the console prints. -/
structure Setting where
  architecture : Architecture
  program : Program
  memoryWords : Nat
  input : Bytes
  output : Output

namespace Setting

def cpu (setting : Setting) (interval : Nat) : Cpu :=
  .boot setting.architecture ⟨setting.memoryWords, interval⟩ setting.program

def console (setting : Setting) : Console :=
  .new setting.input setting.output

/-- The two parties before their first moves. -/
def duet (setting : Setting) (interval : Nat) (capacity : Option Nat) : Duet :=
  .start capacity (setting.cpu interval) setting.console

/-- How the run ends in which every event is handled when it is published, if it takes at most
`fuel` cycles. -/
def sequential? (setting : Setting) (interval fuel : Nat) : Option Ending :=
  (((setting.cpu interval).attached true true).run Conversation.host (fun _ => false) fuel
    (.new setting.console)).map fun (_, cpu, conversation) => .of cpu.core conversation.console

/-- The scene with which every run begins, whatever the interval is. -/
def firstScene (setting : Setting) : Scene :=
  (setting.cpu 0).firstScene setting.console

variable {setting : Setting}

/-- The run in which events are handled at once ends as the cycles do, whatever the interval is. -/
theorem sequential?_iff {interval : Nat} {ending : Ending} :
    (∃ fuel, setting.sequential? interval fuel = some ending) ↔
      ∃ last, Scene.Ends setting.architecture setting.program setting.firstScene last ∧
        ending = .of last.core last.console := by
  have ready : (setting.cpu interval).status = .ready := rfl
  have run := Cpu.run_ends_iff ready setting.console
  unfold sequential?
  constructor
  · rintro ⟨fuel, returned⟩
    obtain ⟨⟨interrupted, cpu, conversation⟩, ran, rfl⟩ := Option.map_eq_some_iff.mp returned
    exact ⟨_, (run _).mpr ⟨fuel, interrupted, cpu, conversation, ran, rfl⟩, rfl⟩
  · rintro ⟨last, ends, rfl⟩
    obtain ⟨fuel, interrupted, cpu, conversation, returned, rfl⟩ := (run last).mp ends
    exact ⟨fuel, Option.map_eq_some_iff.mpr ⟨_, returned, rfl⟩⟩

theorem wired_duet (interval : Nat) (capacity : Option Nat) :
    (setting.duet interval capacity).Wired :=
  Duet.wired_start rfl capacity

theorem heading_duet (interval : Nat) (capacity : Option Nat) :
    (setting.duet interval capacity).Heading ((setting.cpu interval).attached true true)
      setting.firstScene :=
  Duet.heading_start rfl capacity

theorem complete_ends {interval : Nat} {capacity : Option Nat} {last : Duet}
    (complete : (setting.duet interval capacity).Complete last) :
    ∃ final, Scene.Ends setting.architecture setting.program setting.firstScene final ∧
      last.ending? = some (.of final.core final.console) :=
  complete.ends (wired_duet interval capacity) (heading_duet interval capacity)

/-- If the run ends in which every event is handled at once, then so does every interleaving, and in
the same way. -/
theorem agrees_of_sequential? {interval fuel : Nat} {ending : Ending}
    (returned : setting.sequential? interval fuel = some ending) (interval' : Nat)
    (capacity : Option Nat) :
    (setting.duet interval' capacity).Terminating ∧
      ∀ last, (setting.duet interval' capacity).Complete last → last.ending? = some ending := by
  obtain ⟨final, ends, rfl⟩ := sequential?_iff.mp ⟨fuel, returned⟩
  refine ⟨?_, fun last complete => ?_⟩
  · exact Duet.terminating_of_ends ends (wired_duet interval' capacity)
      (heading_duet interval' capacity)
  · obtain ⟨final', ends', ending'⟩ := complete_ends complete
    rw [ending', ends.unique ends']

/-- All interleavings that cannot be continued end alike, and like the run in which every event is
handled at once; and if that run ends then so do all interleavings. -/
theorem interleavings_agree (setting : Setting) :
    (∀ interval interval' capacity capacity' last last',
      (setting.duet interval capacity).Complete last →
      (setting.duet interval' capacity').Complete last' → last.ending? = last'.ending?) ∧
    (∀ interval capacity last, (setting.duet interval capacity).Complete last →
      ∃ ending, last.ending? = some ending ∧
        ∀ interval', ∃ fuel, setting.sequential? interval' fuel = some ending) ∧
    ∀ interval fuel ending, setting.sequential? interval fuel = some ending →
      ∀ interval' capacity, (setting.duet interval' capacity).Terminating ∧
        ∀ last, (setting.duet interval' capacity).Complete last →
          last.ending? = some ending := by
  refine ⟨?_, ?_, fun _ _ _ => agrees_of_sequential?⟩
  · intro interval interval' capacity capacity' last last' complete complete'
    obtain ⟨final, ends, ending⟩ := complete_ends complete
    obtain ⟨final', ends', ending'⟩ := complete_ends complete'
    rw [ending, ending', ends.unique ends']
  · intro interval capacity last complete
    obtain ⟨final, ends, ending⟩ := complete_ends complete
    exact ⟨_, ending, fun _ => sequential?_iff.mpr ⟨final, ends, rfl⟩⟩

/-- A program that reads a value and shows it, at a console whose output takes five bytes. -/
def echo : Setting where
  architecture := .standard
  program := #[.nullary 0x60, .nullary 0x61, .nullary 0x01]
  memoryWords := 0
  input := Text.toBytes "7\n"
  output := .limited 5

/-- The console gives up in the middle of the line that shows the value, and the program goes on to
its end. -/
def echoEnding : Ending where
  state :=
    { (MachineState.initial 0).setRegister .first 7 with
      pc := 2
      flags := ⟨true, false, false⟩
      cycles := 3 }
  status := .halted
  outcome := .error .refusedOutput
  bytes := Text.toBytes "in> 7"

theorem interleavings_agree_echo :
    ∃ last last', (echo.duet 1 (some 0)).Complete last ∧ (echo.duet 0 none).Complete last' ∧
      last.ending? = last'.ending? ∧ last.ending? = some echoEnding ∧
      ∃ fuel, echo.sequential? 2 fuel = some echoEnding := by
  obtain ⟨alike, sequential, ends⟩ := interleavings_agree echo
  have returned : echo.sequential? 0 3 = some echoEnding := by decide +kernel
  obtain ⟨terminating, ending⟩ := ends 0 3 echoEnding returned 1 (some 0)
  obtain ⟨last, complete⟩ := terminating.exists_complete
  obtain ⟨last', complete'⟩ := (ends 0 3 echoEnding returned 0 none).1.exists_complete
  obtain ⟨found, same, again⟩ := sequential 1 (some 0) last complete
  obtain rfl : echoEnding = found := Option.some.inj ((ending last complete).symm.trans same)
  exact ⟨last, last', complete, complete', alike _ _ _ _ _ _ complete complete', same, again 2⟩

end Setting
end Minicomputer
