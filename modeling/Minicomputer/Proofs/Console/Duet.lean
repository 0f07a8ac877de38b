import Mathlib.Logic.Relation
import Minicomputer.Proofs.Channel
import Minicomputer.Proofs.Console.Scene

/-!
# A processor and a console at the same time

Here the processor and its console are two parties that act independently.  Two channels are between
them: one for events, with or without a bound, and an unbounded one for the values.  A party that
finds its channel full or empty has to wait for the other, and either party may be gone when the
other turns to it.

* `Duet.ProcessorMove`, `Duet.ConsoleMove` -- what either party can do next;
* `Duet.Wired` -- which ends of the channels are open, and why the others are not.

Every move turns to a channel at most once, apart from letting go of an end whose other end is gone
already, so whatever one party does between two such turns is unknown to the other.  Nobody requests
an interrupt.
-/

namespace Minicomputer

/-! ## Configurations -/

/-- What the processor is doing. -/
inductive Engine where
  /-- It is in the middle of a cycle, or between two. -/
  | busy (dialogue : Dialogue Cpu)
  /-- It has stopped, and has let go of its end of the events. -/
  | closing (cpu : Cpu)
  | closed (cpu : Cpu)

/-- What the processor does next, unless it begins another cycle.  This depends on nothing but the
answers that it gets. -/
inductive Engine.Onward : Engine → Engine → Prop
  | note {n : Note} {next : Dialogue Cpu} : Onward (.busy (.note n next)) (.busy next)
  | publish {event : Event} {next : Bool → Dialogue Cpu} (received : Bool) :
      Onward (.busy (.publish event next)) (.busy (next received))
  | receive {next : Option UInt16 → Dialogue Cpu} (value : Option UInt16) :
      Onward (.busy (.receive next)) (.busy (next value))
  | stop {cpu : Cpu} : Onward (.busy (.done cpu)) (.closing { cpu with observed := false })
  | close {cpu : Cpu} : Onward (.closing cpu) (.closed { cpu with supplied := false })

/-- What the console is doing. -/
inductive Display where
  /-- It is about to receive an event. -/
  | waiting
  | handling (event : Event)
  /-- It has received its last event. -/
  | leaving
  /-- It has let go of its end of the events. -/
  | hungUp
  | gone
  deriving DecidableEq, Repr

/-- A processor and a console, and the channels between them. -/
structure Duet where
  engine : Engine
  display : Display
  console : Console
  events : Channel Event
  input : Channel UInt16

/-- The processor has not stopped yet. -/
def Engine.isBusy : Engine → Bool
  | busy _ => true
  | closing _ | closed _ => false

namespace Display

/-- The console receives and handles events. -/
def isWatching : Display → Bool
  | waiting | handling _ => true
  | leaving | hungUp | gone => false

/-- The console holds its end of the events. -/
def isListening : Display → Bool
  | waiting | handling _ | leaving => true
  | hungUp | gone => false

/-- The event that has been received and not handled yet. -/
def pending : Display → List Event
  | handling event => [event]
  | waiting | leaving | hungUp | gone => []

theorem not_watching_of_not_listening {display : Display} (unheard : display.isListening = false) :
    display.isWatching = false := by
  cases display with
  | waiting => cases unheard
  | handling event => cases unheard
  | leaving => rfl
  | hungUp => rfl
  | gone => rfl

end Display

namespace Duet

/-! ## Moves -/

/-- The values, after the console has handled an event and is in that phase.  A value that nobody
receives is dropped, and a console without further values lets go of its end. -/
def deliver (input : Channel UInt16) (reply : Option UInt16) (phase : ConsolePhase) :
    Channel UInt16 :=
  match reply with
  | some value =>
    match input.send value with
    | .accepted input => input
    | .waiting | .refused _ => input
  | none => if phase = .printing then input.closeSender else input

/-- What the processor can do. -/
inductive ProcessorMove (here : Duet) : Duet → Prop
  | note {n : Note} {next : Dialogue Cpu} (busy : here.engine = .busy (.note n next)) :
      ProcessorMove here { here with engine := .busy next }
  | send {event : Event} {next : Bool → Dialogue Cpu} {events : Channel Event}
      (busy : here.engine = .busy (.publish event next))
      (sent : here.events.send event = .accepted events) :
      ProcessorMove here { here with engine := .busy (next true), events }
  /-- A channel that holds nothing passes an event from hand to hand. -/
  | handOver {event : Event} {next : Bool → Dialogue Cpu} {events : Channel Event}
      (busy : here.engine = .busy (.publish event next)) (ready : here.display = .waiting)
      (bound : here.events.capacity = some 0)
      (passed : here.events.pass event = some ([event], events)) :
      ProcessorMove here
        { here with engine := .busy (next true), display := .handling event, events }
  /-- The console is gone, so there is nobody to tell. -/
  | refused {event : Event} {next : Bool → Dialogue Cpu}
      (busy : here.engine = .busy (.publish event next))
      (sent : here.events.send event = .refused event) :
      ProcessorMove here
        { here with engine := .busy (next false), events := here.events.closeSender }
  | receive {value : UInt16} {next : Option UInt16 → Dialogue Cpu} {input : Channel UInt16}
      (busy : here.engine = .busy (.receive next))
      (received : here.input.receive = (.message value, input)) :
      ProcessorMove here { here with engine := .busy (next (some value)), input }
  /-- The console has no more values, so there is nobody to ask. -/
  | unsupplied {next : Option UInt16 → Dialogue Cpu} {input : Channel UInt16}
      (busy : here.engine = .busy (.receive next))
      (received : here.input.receive = (.ended, input)) :
      ProcessorMove here { here with engine := .busy (next none), input := input.closeReceiver }
  | cycle {cpu : Cpu} (busy : here.engine = .busy (.done cpu))
      (going : ¬ cpu.status.isTerminal) :
      ProcessorMove here { here with engine := .busy cpu.step }
  | stop {cpu : Cpu} (busy : here.engine = .busy (.done cpu)) (stopped : cpu.status.isTerminal) :
      ProcessorMove here
        { here with engine := .closing { cpu with observed := false },
                    events := here.events.closeSender }
  | close {cpu : Cpu} (closing : here.engine = .closing cpu) :
      ProcessorMove here
        { here with engine := .closed { cpu with supplied := false },
                    input := here.input.closeReceiver }

/-- What the console can do. -/
inductive ConsoleMove (here : Duet) : Duet → Prop
  | take {event : Event} {events : Channel Event} (ready : here.display = .waiting)
      (received : here.events.receive = (.message event, events)) :
      ConsoleMove here { here with display := .handling event, events }
  | respond {event : Event} {reply : Option UInt16} {console : Console}
      (handling : here.display = .handling event)
      (handled : here.console.handle event = (reply, console)) :
      ConsoleMove here
        { here with display := if console.hasFailed then .leaving else .waiting,
                    console, input := deliver here.input reply console.phase }
  | finish {events : Channel Event} (ready : here.display = .waiting)
      (received : here.events.receive = (.ended, events)) :
      ConsoleMove here { here with display := .leaving, events }
  | hangUp (leaving : here.display = .leaving) :
      ConsoleMove here { here with display := .hungUp, events := here.events.closeReceiver }
  | leave (hungUp : here.display = .hungUp) :
      ConsoleMove here { here with display := .gone, input := here.input.closeSender }

/-- What can happen next. -/
inductive Move (here next : Duet) : Prop
  | processor (move : ProcessorMove here next)
  | console (move : ConsoleMove here next)

/-- A processor about to start, a console that has not handled anything, and empty channels. -/
def start (capacity : Option Nat) (cpu : Cpu) (console : Console) : Duet :=
  ⟨.busy (cpu.attached true true).start, .waiting, console, .fresh capacity, .fresh none⟩

/-! ## Values on their way -/

section Deliver

variable {input : Channel UInt16} {reply : Option UInt16} {phase : ConsolePhase}

theorem deliver_none_of_ne_printing (other : phase ≠ .printing) :
    deliver input none phase = input :=
  if_neg other

theorem deliver_none_printing : deliver input none .printing = input.closeSender :=
  rfl

/-- A value is received unless there is nobody who would receive it. -/
theorem deliver_some (unbounded : input.capacity = none) (value : UInt16) :
    deliver input (some value) phase =
      if input.receiving then { input with queue := input.queue.push value } else input := by
  unfold deliver Channel.send Channel.isFull
  rw [unbounded]
  cases input.receiving with
  | true => rfl
  | false => rfl

theorem deliver_sides (unbounded : input.capacity = none) :
    (deliver input reply phase).receiving = input.receiving ∧
      (deliver input reply phase).capacity = none := by
  cases reply with
  | none =>
    by_cases printing : phase = .printing
    · rw [printing, deliver_none_printing]
      exact ⟨rfl, unbounded⟩
    · rw [deliver_none_of_ne_printing printing]
      exact ⟨rfl, unbounded⟩
  | some value =>
    rw [deliver_some unbounded]
    by_cases listening : input.receiving = true
    · rw [if_pos listening]
      exact ⟨rfl, unbounded⟩
    · rw [if_neg listening]
      exact ⟨rfl, unbounded⟩

/-- The console lets go of its end when it has no value to send any more. -/
theorem deliver_sending (unbounded : input.capacity = none) :
    (deliver input reply phase).sending =
      if reply = none ∧ phase = .printing then false else input.sending := by
  cases reply with
  | none =>
    by_cases printing : phase = .printing
    · rw [if_pos ⟨rfl, printing⟩, printing, deliver_none_printing]
      rfl
    · rw [if_neg (fun both => printing both.2), deliver_none_of_ne_printing printing]
  | some value =>
    have sent : ¬ (some value = none ∧ phase = .printing) := fun both => nomatch both.1
    rw [if_neg sent, deliver_some unbounded]
    split
    · rfl
    · rfl

/-- A value that is sent while somebody receives is on its way. -/
theorem deliver_queue (unbounded : input.capacity = none)
    (heard : reply ≠ none → input.receiving = true) :
    (deliver input reply phase).queue.toList = input.queue.toList ++ reply.toList := by
  cases reply with
  | none =>
    rw [Option.toList_none, List.append_nil]
    by_cases printing : phase = .printing
    · rw [printing, deliver_none_printing]
      rfl
    · rw [deliver_none_of_ne_printing printing]
  | some value =>
    rw [deliver_some unbounded, if_pos (heard nofun)]
    exact Queue.toList_push _ _

end Deliver

/-! ## Who is there -/

/-- Which ends of the channels are open, and why the others are not. -/
structure Wired (duet : Duet) : Prop where
  listening : duet.events.receiving = duet.display.isListening
  sending : duet.events.sending = false →
    duet.engine.isBusy = false ∨ duet.display.isListening = false
  stopped : duet.engine.isBusy = false → duet.events.sending = false
  /-- The console leaves if it has failed, or when the processor has stopped and there is nothing
  left to handle. -/
  left : duet.display.isWatching = false →
    duet.console.hasFailed = true ∨
      duet.engine.isBusy = false ∧ duet.events.queue.toList = []
  supplying : duet.display.isWatching = true → duet.input.sending = true →
    duet.console.phase = .answering
  exhausted : duet.input.sending = false →
    duet.console.phase ≠ .answering ∨ duet.engine.isBusy = false
  gone : duet.display = .gone → duet.input.sending = false
  heard : duet.input.receiving = false →
    duet.console.phase ≠ .answering ∨ duet.engine.isBusy = false
  unbounded : duet.input.capacity = none

variable {here next : Duet}

theorem wired_start {cpu : Cpu} {console : Console} (fresh : console.phase = .answering)
    (capacity : Option Nat) : (start capacity cpu console).Wired where
  listening := rfl
  sending := nofun
  stopped := nofun
  left := nofun
  supplying _ _ := fresh
  exhausted := nofun
  gone := nofun
  heard := nofun
  unbounded := rfl

/-- As long as the processor has not stopped, the console leaves only if it has failed. -/
theorem Wired.hasFailed_of_left (wired : here.Wired) {dialogue : Dialogue Cpu}
    (busy : here.engine = .busy dialogue) (away : here.display.isWatching = false) :
    here.console.hasFailed = true := by
  rcases wired.left away with failed | ⟨idle, -⟩
  · exact failed
  · rw [busy] at idle
    cases idle

theorem ProcessorMove.wired (move : ProcessorMove here next) (wired : here.Wired) :
    next.Wired := by
  have failed {dialogue : Dialogue Cpu} (busy : here.engine = .busy dialogue) :=
    wired.hasFailed_of_left busy
  obtain ⟨engine, display, console, events, input⟩ := here
  cases move with
  | note busy =>
    cases busy
    exact { wired with }
  | send busy sent =>
    cases busy
    obtain ⟨-, rfl⟩ := Channel.of_accepted sent
    exact { wired with left := fun away => .inl (failed rfl away) }
  | handOver busy ready bound passed =>
    cases busy
    cases ready
    obtain ⟨-, -, rfl⟩ := Channel.of_pass passed
    exact { wired with left := nofun, gone := nofun }
  | refused busy sent =>
    cases busy
    have away : display.isListening = false := wired.listening.symm.trans (Channel.of_refused sent)
    exact { wired with sending := fun _ => .inr away, stopped := nofun }
  | receive busy received =>
    cases busy
    obtain ⟨-, same⟩ := Channel.of_message received
    rw [same]
    exact { wired with }
  | unsupplied busy received =>
    cases busy
    obtain ⟨-, ended, rfl⟩ := Channel.of_ended received
    exact { wired with heard := fun _ => wired.exhausted ended }
  | cycle busy going =>
    cases busy
    exact { wired with }
  | stop busy stopped =>
    cases busy
    exact
      { wired with
        sending := fun _ => .inl rfl
        stopped := fun _ => rfl
        left := fun away => .inl (failed rfl away)
        exhausted := fun _ => .inr rfl
        heard := fun _ => .inr rfl }
  | close closing =>
    cases closing
    exact { wired with heard := fun _ => .inr rfl }

theorem wired_respond {event : Event} {reply : Option UInt16} {console : Console}
    (wired : here.Wired) (handling : here.display = .handling event)
    (handled : here.console.handle event = (reply, console)) :
    ({ here with
        display := if console.hasFailed then .leaving else .waiting,
        console, input := deliver here.input reply console.phase } : Duet).Wired := by
  obtain ⟨engine, display, before, events, input⟩ := here
  cases handling
  have cases := before.handle_cases event
  have deaf (h : before.phase ≠ .answering) := (Console.handle_of_ne_answering h event).2
  have handled : before.handle event = (reply, console) := handled
  rw [handled] at cases
  simp only [handled] at deaf
  have unbounded : input.capacity = none := wired.unbounded
  have sides : (deliver input reply console.phase).receiving = input.receiving ∧
      (deliver input reply console.phase).capacity = none := deliver_sides unbounded
  have exhausted : (deliver input reply console.phase).sending = false →
      console.phase ≠ .answering ∨ engine.isBusy = false := by
    intro ended
    by_cases answering : console.phase = .answering
    · -- The console still answers, so its end has not been let go just now.
      rw [deliver_sending unbounded, if_neg (by simp [answering])] at ended
      exact (wired.exhausted ended).imp_left deaf
    · exact .inl answering
  have heard : (deliver input reply console.phase).receiving = false →
      console.phase ≠ .answering ∨ engine.isBusy = false := by
    intro unheard
    rw [sides.1] at unheard
    exact (wired.heard unheard).imp_left deaf
  cases failed : console.hasFailed with
  | true =>
    exact
      { wired with
        left := fun _ => .inl failed
        supplying := nofun
        exhausted := exhausted
        gone := nofun
        heard := heard
        unbounded := sides.2 }
  | false =>
    refine
      { wired with
        left := nofun
        supplying := fun _ supplied => ?_
        exhausted := exhausted
        gone := nofun
        heard := heard
        unbounded := sides.2 }
    rw [deliver_sending unbounded] at supplied
    rcases cases with ⟨-, rfl, same⟩ | ⟨-, -, -, answering⟩ | ⟨rfl, other⟩
    · split at supplied
      next => cases supplied
      next => exact same.trans (wired.supplying rfl supplied)
    · exact answering
    · -- A console that neither answers nor has failed would have let go of its end.
      cases phase : console.phase with
      | answering => rfl
      | printing =>
        rw [if_pos ⟨rfl, phase⟩] at supplied
        cases supplied
      | failed reason =>
        rw [Console.hasFailed, phase] at failed
        cases failed

theorem ConsoleMove.wired (move : ConsoleMove here next) (wired : here.Wired) : next.Wired := by
  cases move with
  | respond handling handled => exact wired_respond wired handling handled
  | take ready received =>
    obtain ⟨engine, display, console, events, input⟩ := here
    cases ready
    obtain ⟨-, same⟩ := Channel.of_message received
    rw [same]
    exact { wired with left := nofun, gone := nofun }
  | finish ready received =>
    obtain ⟨engine, display, console, events, input⟩ := here
    cases ready
    obtain ⟨empty, ended, rfl⟩ := Channel.of_ended received
    have stopped : engine.isBusy = false := (wired.sending ended).resolve_right nofun
    exact { wired with left := fun _ => .inr ⟨stopped, empty⟩, supplying := nofun, gone := nofun }
  | hangUp leaving =>
    obtain ⟨engine, display, console, events, input⟩ := here
    cases leaving
    exact
      { wired with
        listening := rfl
        sending := fun _ => .inr rfl
        left := fun _ => (wired.left rfl).imp_right fun idle => ⟨idle.1, rfl⟩
        gone := nofun }
  | leave hungUp =>
    obtain ⟨engine, display, console, events, input⟩ := here
    cases hungUp
    exact
      { wired with
        supplying := nofun
        exhausted := fun _ => (wired.left rfl).imp Console.phase_ne_answering_of_hasFailed And.left
        gone := fun _ => rfl }

end Duet
end Minicomputer
