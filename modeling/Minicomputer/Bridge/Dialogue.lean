import Minicomputer.Architecture.Listing
import Minicomputer.Bridge.Event
import Minicomputer.Log

/-!
# The processor's side of a conversation

The processor executes instructions by itself, but now and then it turns to the outside: it
publishes an event, waits for a value, or notes something for the log.  A `Dialogue` is a
computation with such turns in it, each followed by what happens for every answer.

What the answers are is left open.  A `Host` answers them out of a state of its own, and
`Dialogue.run` plays a dialogue against a host.  One processor can thus be run without an observer,
with a console, or with channels whose other ends somebody holds; and the turns of two parties can
be interleaved, because a dialogue stops at each of them.
-/

namespace Minicomputer

/-! ## Notes -/

inductive Note where
  | loaded (instructions : Nat)
  | running (instructions : Nat)
  | executing (pc : Nat) (instruction : Instruction)
  | pastEnd (pc : Nat)
  | unobservedOutput (value : UInt16)
  | inputUnattached (pc : Nat)
  | inputClosed
  | hungUp
  | halted (pc cycles : Nat)
  | faulted (cycles : Nat) (fault : Fault)
  | interrupted (pc : Nat)
  | dumpDropped
  deriving DecidableEq, Repr

namespace Note

def entry (architecture : Architecture) : Note → Log.Entry
  | loaded instructions =>
    ⟨.debug, "Loaded " ++ Text.decimal instructions ++ " instruction(s)"⟩
  | running instructions =>
    ⟨.info, "Running " ++ Text.decimal instructions ++ " instruction(s)"⟩
  | executing pc instruction =>
    ⟨.debug, Text.prefixedHex 4 pc ++ "  " ++ architecture.disassemble instruction⟩
  | pastEnd pc =>
    ⟨.info, "Program counter " ++ Text.prefixedHex 4 pc ++ " is past the end of the program"⟩
  | unobservedOutput value => ⟨.info, "OUT " ++ Text.decimal value.toNat⟩
  | inputUnattached pc =>
    ⟨.warn, "IN at " ++ Text.prefixedHex 4 pc ++ " with no renderer attached; reading 0"⟩
  | inputClosed => ⟨.warn, "Renderer closed its input channel; reading 0"⟩
  | hungUp => ⟨.warn, "Renderer hung up; continuing headless"⟩
  | halted pc cycles =>
    ⟨.info, "Halted at " ++ Text.prefixedHex 4 pc ++ " after " ++ Text.decimal cycles ++
      " cycle(s)"⟩
  | faulted cycles fault =>
    ⟨.error, "Faulted after " ++ Text.decimal cycles ++ " cycle(s): " ++ fault.message⟩
  | interrupted pc => ⟨.warn, "Interrupt requested at pc = " ++ Text.prefixedHex 4 pc⟩
  | dumpDropped => ⟨.warn, "Interrupt handler is gone; core dump dropped"⟩

end Note

/-! ## Dialogues -/

/-- A computation with turns to the outside. -/
inductive Dialogue (α : Type) where
  /-- The computation is over. -/
  | done (value : α)
  /-- Something is noted. -/
  | note (note : Note) (next : Dialogue α)
  /-- An event is published; the answer is whether somebody received it. -/
  | publish (event : Event) (next : Bool → Dialogue α)
  /-- A value is waited for; no value comes once the other side has closed. -/
  | receive (next : Option UInt16 → Dialogue α)

namespace Dialogue

variable {α β : Type}

def bind : Dialogue α → (α → Dialogue β) → Dialogue β
  | done value, then_ => then_ value
  | note n next, then_ => note n (next.bind then_)
  | publish event next, then_ => publish event fun received => (next received).bind then_
  | receive next, then_ => receive fun value => (next value).bind then_

instance : Monad Dialogue where
  pure := done
  bind := bind

end Dialogue

/-! ## Hosts -/

/-- Somebody who answers the turns of a dialogue, with a state `σ`. -/
structure Host (σ : Type) where
  note : Note → σ → σ
  publish : Event → σ → Bool × σ
  receive : σ → Option UInt16 × σ

namespace Host

/-- A host behind which there is nobody: nothing is received and nothing comes. -/
def silent : Host Unit where
  note _ world := world
  publish _ world := (false, world)
  receive world := (none, world)

end Host

namespace Dialogue

variable {α σ : Type}

/-- Plays a dialogue against a host: the value at its end and the state in which it leaves the
host. -/
def run (host : Host σ) : Dialogue α → σ → α × σ
  | done value, world => (value, world)
  | note n next, world => next.run host (host.note n world)
  | publish event next, world =>
    match host.publish event world with
    | (received, world) => (next received).run host world
  | receive next, world =>
    match host.receive world with
    | (value, world) => (next value).run host world

theorem run_bind {β : Type} (host : Host σ) (dialogue : Dialogue α) (next : α → Dialogue β)
    (world : σ) :
    (dialogue.bind next).run host world =
      (next (dialogue.run host world).1).run host (dialogue.run host world).2 := by
  induction dialogue generalizing world with
  | done value => rfl
  | note n rest ih => exact ih _
  | publish event rest ih => exact ih _ _
  | receive rest ih => exact ih _ _

end Dialogue
end Minicomputer
