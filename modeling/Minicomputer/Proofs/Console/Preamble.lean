import Minicomputer.Console.Conversation

/-!
# What has been printed before

A console prints behind what is on its output already, and never looks at it.  So a run at a console
does not depend on it either: with a preamble in front everything is the same, and the preamble is
in front.

* `Host.Carries` -- a function that takes what one host does to what another does;
* `Dialogue.run_carried`, `Cpu.run_carried` -- it takes dialogues and runs along;
* `Conversation.behind`, `Cpu.converse_behind` -- a preamble in front of a conversation.
-/

namespace Minicomputer

/-! ## Hosts that do the same -/

/-- What the first host does in a world, the second does in the world that the function says, with
the same answers. -/
structure Host.Carries {σ σ' : Type} (host : Host σ) (host' : Host σ') (carry : σ → σ') : Prop where
  note : ∀ n world, host'.note n (carry world) = carry (host.note n world)
  publish : ∀ event world, host'.publish event (carry world) =
    ((host.publish event world).1, carry (host.publish event world).2)
  receive : ∀ world, host'.receive (carry world) =
    ((host.receive world).1, carry (host.receive world).2)

section

variable {σ σ' : Type} {host : Host σ} {host' : Host σ'} {carry : σ → σ'}
  (carries : host.Carries host' carry)

include carries

theorem Dialogue.run_carried {α : Type} (dialogue : Dialogue α) (world : σ) :
    dialogue.run host' (carry world) =
      ((dialogue.run host world).1, carry (dialogue.run host world).2) := by
  induction dialogue generalizing world with
  | done value => rfl
  | note n next ih =>
    rw [Dialogue.run, carries.note, ih]
    rfl
  | publish event next ih =>
    rw [Dialogue.run, carries.publish]
    exact ih _ _
  | receive next ih =>
    rw [Dialogue.run, carries.receive]
    exact ih _ _

namespace Cpu

variable {interruptRequested : σ → Bool} {interruptRequested' : σ' → Bool}
  (requests : ∀ world, interruptRequested' (carry world) = interruptRequested world)

include requests

theorem loop_carried (fuel : Nat) (cpu : Cpu) (world : σ) :
    loop host' interruptRequested' fuel cpu (carry world) =
      (loop host interruptRequested fuel cpu world).map fun (interrupted, cpu, world) =>
        (interrupted, cpu, carry world) := by
  induction fuel generalizing cpu world with
  | zero =>
    unfold loop
    rw [requests]
    split
    · rfl
    · split
      · rfl
      · rfl
  | succ fuel ih =>
    unfold loop
    rw [requests]
    split
    · rfl
    · split
      · rfl
      · dsimp only
        rw [Dialogue.run_carried carries]
        exact ih _ _

theorem run_carried (fuel : Nat) (cpu : Cpu) (world : σ) :
    run host' interruptRequested' fuel cpu (carry world) =
      (run host interruptRequested fuel cpu world).map fun (interrupted, cpu, world) =>
        (interrupted, cpu, carry world) := by
  unfold run
  rw [Dialogue.run_carried carries]
  dsimp only
  rw [loop_carried carries requests, Option.map_map, Option.map_map]
  rfl

end Cpu
end

/-! ## A preamble in front -/

/-- The output with a preamble in front of what has been printed. -/
def Output.behind (preamble : Array UInt8) (output : Output) : Output :=
  { output with written := preamble ++ output.written }

theorem Output.print_behind (preamble : Array UInt8) (output : Output) (bytes : Bytes) :
    (output.behind preamble).print bytes =
      ((output.print bytes).1, (output.print bytes).2.behind preamble) := by
  have assoc (bytes : Bytes) :
      preamble ++ output.written ++ bytes = preamble ++ (output.written ++ bytes) :=
    Array.toList_inj.mp (by simp)
  obtain ⟨written, room⟩ := output
  cases room with
  | none => exact congrArg (fun all => (true, (⟨all, none⟩ : Output))) (assoc bytes)
  | some room =>
    exact congrArg (fun all => (decide (bytes.length ≤ room),
      (⟨all, some (room - bytes.length)⟩ : Output))) (assoc (bytes.take room))

namespace Console

variable (preamble : Array UInt8) (console : Console) (event : Event)

/-- The console with a preamble in front of what it has printed. -/
def behind : Console :=
  { console with output := console.output.behind preamble }

theorem hasFailed_behind : (console.behind preamble).hasFailed = console.hasFailed :=
  rfl

theorem respond_behind : (console.behind preamble).respond event = console.respond event := by
  cases event with
  | inputRequested | snapshot _ | output _ | halted _ | faulted _ _ => rfl

theorem handle_behind :
    (console.behind preamble).handle event =
      ((console.handle event).1, (console.handle event).2.behind preamble) := by
  unfold handle
  rw [hasFailed_behind, respond_behind]
  split
  · rfl
  · -- The output takes as much as it would without the preamble, and the rest follows from that.
    dsimp only [behind]
    rw [Output.print_behind]
    rcases console.output.print (Text.toBytes (console.respond event).text) with ⟨all, output⟩
    cases all with
    | false => rfl
    | true =>
      dsimp only
      cases (console.respond event).reaction with
      | nothing | reply _ | exhausted | unreadable => rfl

theorem entries_behind (heard : Bool) :
    (console.behind preamble).entries heard event = console.entries heard event := by
  have phase : (console.behind preamble).phase = console.phase := rfl
  unfold entries
  rw [phase, handle_behind]
  rcases console.handle event with ⟨reply, next⟩
  cases reply with
  | none => rfl
  | some value => rfl

end Console

namespace Conversation

/-- The conversation with a preamble in front of what the console has printed. -/
def behind (preamble : Array UInt8) (conversation : Conversation) : Conversation :=
  { conversation with console := conversation.console.behind preamble }

theorem host_carries_behind (preamble : Array UInt8) : host.Carries host (behind preamble) where
  note _ _ := rfl
  publish event conversation := by
    obtain ⟨console, replies, entries⟩ := conversation
    show publish event ⟨console.behind preamble, replies, entries⟩ = _
    dsimp only [host, publish]
    rw [Console.hasFailed_behind, Console.entries_behind, Console.handle_behind]
    split
    · rfl
    · rcases console.handle event with ⟨reply, next⟩
      cases reply with
      | none => rfl
      | some value => rfl
  receive conversation := by
    obtain ⟨console, replies, entries⟩ := conversation
    dsimp only [host, receive, behind]
    cases replies.pop? with
    | none => rfl
    | some popped => rfl

end Conversation

/-- A processor at a console does not depend on what the console has printed before. -/
theorem Cpu.converse_behind (preamble : Array UInt8) (cpu : Cpu) (console : Console) :
    cpu.converse (console.behind preamble) =
      (cpu.converse console).map fun (cpu, conversation) =>
        (cpu, conversation.behind preamble) := by
  unfold converse
  dsimp only
  rw [show Conversation.new (console.behind preamble) = (Conversation.new console).behind preamble
    from rfl, run_carried (Conversation.host_carries_behind preamble) (fun _ => rfl),
    Option.map_map, Option.map_map]
  rfl

end Minicomputer
