import Minicomputer.Channel
import Minicomputer.Cpu

/-!
# A processor and the channels around it

A session is a processor whose channels have their other ends in somebody's hands: events go to a
queue that is emptied now and then, values come from a queue that is filled now and then, and an
interrupt may be requested between two calls.

Nobody acts while the processor executes.  A value that is not there when it is waited for would
therefore never come, and the processor is told so.  For the same reason a run cannot hand over a
core dump as long as the previous one has not been taken; such a run does not come back.

An end that is held is a side of a channel that is still there: `events.receiving`, `input.sending`,
and `dumps.receiving` of an interrupt.
-/

namespace Minicomputer

/-! ## Connections to the outside -/

/-- The two channels of a processor, and what it has noted. -/
structure Connections where
  events : Channel Event
  input : Channel UInt16
  notes : Array Note

namespace Connections

def closed : Connections :=
  ⟨.closed, .closed, #[]⟩

def note (connections : Connections) (note : Note) : Connections :=
  { connections with notes := connections.notes.push note }

/-- Puts an event into its channel.  If nobody holds the other end the processor lets go of its
own. -/
def publish (connections : Connections) (event : Event) : Bool × Connections :=
  -- Events are never bounded here, so the only alternative to acceptance is refusal.
  match connections.events.send event with
  | .accepted events => (true, { connections with events })
  | _ => (false, { connections with events := connections.events.closeSender })

/-- Takes a value from its channel.  If there is none the processor lets go of its end. -/
def receive (connections : Connections) : Option UInt16 × Connections :=
  match connections.input.receive with
  | (.message value, input) => (some value, { connections with input })
  | (_, input) => (none, { connections with input := input.closeReceiver })

/-- The host that answers from the channels. -/
def host : Host Connections where
  note n connections := connections.note n
  publish event connections := connections.publish event
  receive connections := connections.receive

/-- Lets go of the processor's ends of both channels. -/
def close (connections : Connections) : Connections :=
  { connections with
    events := connections.events.closeSender
    input := connections.input.closeReceiver }

end Connections

/-- A request to stop, and the way on which the core dump goes to whoever has asked. -/
structure Interrupt where
  requested : Bool
  dumps : Channel String

namespace Interrupt

def fresh : Interrupt :=
  ⟨false, .fresh (some 1)⟩

end Interrupt

/-! ## Sessions -/

/-- A processor, its channels, and perhaps an interrupt. -/
structure Session where
  cpu : Cpu
  connections : Connections
  interrupt : Option Interrupt

namespace Session

def new (architecture : Architecture) (config : Config) : Session :=
  ⟨.new architecture config, .closed, none⟩

def clearNotes (session : Session) : Session :=
  { session with connections := { session.connections with notes := #[] } }

def log (session : Session) : List Log.Entry :=
  session.connections.notes.toList.map (Note.entry session.cpu.architecture)

/-! ### The processor -/

/-- Loads a program, as long as the processor has not started. -/
def load (session : Session) (program : Program) : Option Session :=
  (session.cpu.load program).map fun cpu =>
    { session with cpu, connections := session.connections.note (.loaded program.size) }

def step (session : Session) : Session :=
  let ⟨cpu, connections, interrupt⟩ := session
  match cpu.step.run Connections.host connections with
  | (cpu, connections) => ⟨cpu, connections, interrupt⟩

def steps (session : Session) : Nat → Session
  | 0 => session
  | n + 1 => session.step.steps n

def interruptRequested (session : Session) : Bool :=
  session.interrupt.any (·.requested)

/-- Hands a core dump to whoever has requested the interrupt.  There is no result if that has to
wait. -/
def deliverDump (session : Session) : Option Session :=
  match session.interrupt with
  | none => some session
  | some interrupt =>
    match interrupt.dumps.send session.cpu.dumpCore.text with
    | .accepted dumps => some { session with interrupt := some { interrupt with dumps } }
    | .refused _ => some { session with connections := session.connections.note .dumpDropped }
    | .waiting => none

/-- Runs the processor until it stops, or until it sees that an interrupt is requested.  There is no
result if the run does not come back. -/
def run (session : Session) : Option (RunSummary × Session) :=
  -- Nobody acts during the run, so a request is there from the beginning or not at all.
  let requested := session.interruptRequested
  let ⟨cpu, connections, interrupt⟩ := session
  match Cpu.run Connections.host (fun _ => requested) Cpu.patience cpu connections with
  | none => none
  | some (false, cpu, connections) => some (cpu.summary false, ⟨cpu, connections.close, interrupt⟩)
  | some (true, cpu, connections) =>
    -- The channels are closed last, after the core dump has been handed over.
    let noted : Session := ⟨cpu, connections.note (.interrupted cpu.state.pc), interrupt⟩
    noted.deliverDump.map fun session =>
      (session.cpu.summary true, { session with connections := session.connections.close })

/-! ### Events -/

/-- Attaches an observer.  An earlier one is let go. -/
def attachOutput (session : Session) : Session :=
  { session with
    cpu := { session.cpu with observed := true }
    connections := { session.connections with events := .fresh none } }

def drain (session : Session) : List Event × Session :=
  let (events, channel) := session.connections.events.drain
  (events, { session with connections := { session.connections with events := channel } })

def hangUp (session : Session) : Session :=
  { session with
    connections := { session.connections with events := session.connections.events.closeReceiver } }

/-! ### Values -/

/-- Attaches somebody who supplies values.  An earlier one is let go. -/
def attachInput (session : Session) : Session :=
  { session with
    cpu := { session.cpu with supplied := true }
    connections := { session.connections with input := .fresh none } }

/-- Sends values to the processor, and returns those that are handed back. -/
def send (session : Session) : List UInt16 → List UInt16 × Session
  | [] => ([], session)
  | value :: values =>
    match session.connections.input.send value with
    | .accepted input =>
      { session with connections := { session.connections with input } }.send values
    | _ =>
      let (refused, session) := session.send values
      (value :: refused, session)

def closeInput (session : Session) : Session :=
  { session with
    connections := { session.connections with input := session.connections.input.closeSender } }

/-! ### Interrupts -/

/-- Attaches an interrupt in place of any earlier one. -/
def attachInterrupt (session : Session) : Session :=
  { session with interrupt := some .fresh }

def requestInterrupt (session : Session) : Session :=
  { session with interrupt := session.interrupt.map ({ · with requested := true }) }

/-- Takes the core dump, if one has been handed over. -/
def takeDump (session : Session) : Option String × Session :=
  match session.interrupt with
  | none => (none, session)
  | some interrupt =>
    match interrupt.dumps.receive with
    | (.message dump, dumps) =>
      (some dump, { session with interrupt := some { interrupt with dumps } })
    | _ => (none, session)

/-- Whoever could request the interrupt and take its core dump goes.  A request stays. -/
def releaseInterrupt (session : Session) : Session :=
  { session with
    interrupt := session.interrupt.map fun interrupt =>
      { interrupt with dumps := interrupt.dumps.closeReceiver } }

end Session
end Minicomputer
