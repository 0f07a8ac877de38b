import Minicomputer.Channel
import Minicomputer.Console
import Minicomputer.Cpu

/-!
# A processor at the console

What a person at the console sees of a run: the console is the processor's observer and supplies its
values.  Here the two take turns.  Every event is handled as soon as it is published, so a value has
been sent before the processor waits for it, and at most one value is on its way.
-/

namespace Minicomputer

/-- The console during a run, the values on their way to the processor, and what the console has
logged. -/
structure Conversation where
  console : Console
  replies : Queue UInt16
  entries : Array Log.Entry

namespace Conversation

def new (console : Console) : Conversation :=
  ⟨console, .empty, #[]⟩

/-- Lets the console handle an event.  A console that has given up receives nothing. -/
def publish (event : Event) (conversation : Conversation) : Bool × Conversation :=
  let ⟨console, replies, entries⟩ := conversation
  if console.hasFailed then (false, ⟨console, replies, entries⟩)
  else
    let entries := entries ++ console.entries true event
    match console.handle event with
    | (some reply, console) => (true, ⟨console, replies.push reply, entries⟩)
    | (none, console) => (true, ⟨console, replies, entries⟩)

/-- Takes the value that the console has sent.  If it has not sent any it never will. -/
def receive (conversation : Conversation) : Option UInt16 × Conversation :=
  match conversation.replies.pop? with
  | some (value, replies) => (some value, { conversation with replies })
  | none => (none, conversation)

/-- The host that answers as the console does.  What the processor notes is of no concern to it. -/
def host : Host Conversation where
  note _ conversation := conversation
  publish := publish
  receive := receive

end Conversation

namespace Cpu

def converse (cpu : Cpu) (console : Console) : Option (Cpu × Conversation) :=
  let attached := { cpu with observed := true, supplied := true }
  (attached.run Conversation.host (fun _ => false) patience (.new console)).map
    fun (_, cpu, conversation) => (cpu, conversation)

end Cpu
end Minicomputer
