import Minicomputer.Proofs.Machine.Core

/-!
# How a processor asks for values

A processor asks for a value by an event, and the answer comes on another way.  It asks only if
somebody supplies values, and it does nothing else until the answer has been taken: when a request
has been received there is no other event, and no note, before the value.  A value is waited for
without a request only if the observer has gone before.

* `Dialogue.Orderly` -- dialogues that keep to this, with anybody who answers;
* `Cpu.Awaits` -- the middle of an `IN`, where its value is waited for;
* `Cpu.step_orderly` -- every cycle keeps to it, and waits nowhere else.
-/

namespace Minicomputer

/-- Whether the event is a request for a value. -/
def Event.isRequest : Event → Bool
  | inputRequested => true
  | snapshot _ | output _ | halted _ | faulted .. => false

/-- How a processor and those around it stand to each other. -/
structure Standing where
  /-- A request has been received, and its answer has not been taken yet. -/
  asked : Bool
  observed : Bool
  supplied : Bool

/-! ## Dialogues that keep to the protocol -/

namespace Dialogue

variable {α β : Type}

/-- The dialogue keeps to the protocol from that standing on.  The first condition holds wherever it
waits for a value, the second one of the value and the standing at its end. -/
def Orderly (waits : (Option UInt16 → Dialogue α) → Prop) (post : α → Standing → Prop) :
    Standing → Dialogue α → Prop
  | standing, done value => post value standing
  | standing, note _ next => standing.asked = false ∧ next.Orderly waits post standing
  | standing, publish event next =>
    (standing.asked = false ∧ standing.observed = true ∧
        (event.isRequest = true → standing.supplied = true)) ∧
      (next true).Orderly waits post { standing with asked := event.isRequest } ∧
        (next false).Orderly waits post { standing with observed := false }
  | standing, receive next =>
    (standing.asked = standing.observed ∧ standing.supplied = true ∧ waits next) ∧
      (∀ value, (next (some value)).Orderly waits post { standing with asked := false }) ∧
        (next none).Orderly waits post { standing with asked := false, supplied := false }

theorem orderly_bind {dialogue : Dialogue α} {next : α → Dialogue β}
    {waits : (Option UInt16 → Dialogue β) → Prop} {post : β → Standing → Prop}
    {standing : Standing}
    (h : dialogue.Orderly (fun rest => waits fun answer => (rest answer).bind next)
      (fun value standing => (next value).Orderly waits post standing) standing) :
    (dialogue.bind next).Orderly waits post standing := by
  induction dialogue generalizing standing with
  | done value => exact h
  | note n rest ih => exact ⟨h.1, ih h.2⟩
  | publish event rest ih => exact ⟨h.1, ih true h.2.1, ih false h.2.2⟩
  | receive rest ih => exact ⟨h.1, fun value => ih _ (h.2.1 value), ih none h.2.2⟩

end Dialogue

/-! ## The processor -/

namespace Cpu

/-- The standing between two turns to the outside. -/
def standing (cpu : Cpu) : Standing :=
  ⟨false, cpu.observed, cpu.supplied⟩

/-- What an answer comes to. -/
def answered (cpu : Cpu) : Option UInt16 → Dialogue (UInt16 × Cpu)
  | some value => .done (value, cpu)
  | none => .note .inputClosed (.done (0, { cpu with supplied := false }))

/-- The rest of an `IN` that waits for its value. -/
def rest (cpu : Cpu) (instruction : Instruction) (answer : Option UInt16) : Dialogue Cpu :=
  (cpu.answered answer).bind fun (value, after) =>
    { after with
      state := after.state.setRegister instruction.dest value }.complete (cpu.state.pc + 1)

/-- Some processor is in the middle of an `IN` and waits for its value. -/
def Awaits (dialogue : Dialogue Cpu) : Prop :=
  ∃ (cpu : Cpu) (instruction : Instruction), cpu.upcoming? = some (.input, instruction) ∧
    dialogue = .receive (cpu.rest instruction)

/-- An event other than a request changes nothing, except that the observer may have gone. -/
theorem publish_orderly {waits : (Option UInt16 → Dialogue Cpu) → Prop}
    {post : Cpu → Standing → Prop} (cpu : Cpu) {event : Event} (other : event.isRequest = false)
    (h : ∀ observed, post { cpu with observed } { cpu.standing with observed }) :
    (cpu.publish event).Orderly waits post cpu.standing := by
  unfold publish
  split
  next observed =>
    refine ⟨⟨rfl, observed, fun asks => ?_⟩, ?_, rfl, h false⟩
    · rw [other] at asks
      cases asks
    · rw [other]
      exact h cpu.observed
  next => exact h cpu.observed

theorem emit_orderly {waits : (Option UInt16 → Dialogue Cpu) → Prop}
    {post : Cpu → Standing → Prop} (cpu : Cpu) (value : UInt16)
    (h : ∀ observed, post { cpu with observed } { cpu.standing with observed }) :
    (cpu.emit value).Orderly waits post cpu.standing := by
  unfold emit
  split
  · exact publish_orderly cpu rfl h
  · exact ⟨rfl, h cpu.observed⟩

section

variable {waits : (Option UInt16 → Dialogue (UInt16 × Cpu)) → Prop}
  {post : UInt16 × Cpu → Standing → Prop}

theorem answered_orderly (cpu : Cpu) (supplied : cpu.supplied = true) (here : waits cpu.answered)
    (h : ∀ value supplied, post (value, { cpu with supplied }) { cpu.standing with supplied }) :
    (Dialogue.receive cpu.answered).Orderly waits post
      { cpu.standing with asked := cpu.observed } :=
  ⟨⟨rfl, supplied, here⟩, fun value => h value cpu.supplied, rfl, h 0 false⟩

/-- A value is waited for when the request has been received, or if there is no observer. -/
theorem read_orderly (cpu : Cpu) (here : ∀ observed, waits (answered { cpu with observed }))
    (h : ∀ value observed supplied, post (value, { cpu with observed, supplied })
      { cpu.standing with observed, supplied }) :
    cpu.read.Orderly waits post cpu.standing := by
  obtain ⟨architecture, interval, program, state, status, observed, supplied⟩ := cpu
  cases supplied with
  | false => exact ⟨rfl, h 0 observed false⟩
  | true =>
    have answered (observed : Bool) :=
      answered_orderly ⟨architecture, interval, program, state, status, observed, true⟩ rfl
        (here observed) fun value => h value observed
    cases observed with
    | true => exact ⟨⟨rfl, rfl, fun _ => rfl⟩, answered true, rfl, answered false⟩
    | false => exact answered false

end

/-- What a cycle has come to. -/
abbrev Settled (cpu : Cpu) (standing : Standing) : Prop :=
  standing = cpu.standing

variable {waits : (Option UInt16 → Dialogue Cpu) → Prop}

theorem complete_orderly (cpu : Cpu) (target : Nat) :
    (cpu.complete target).Orderly waits Settled cpu.standing := by
  let after := { cpu with state := cpu.state.complete target }
  show (if after.snapshotDue then after.publish (.snapshot after.state)
    else .done after).Orderly _ _ after.standing
  split
  · exact publish_orderly after rfl fun _ => rfl
  · exact rfl

theorem halt_orderly (cpu : Cpu) : cpu.halt.Orderly waits Settled cpu.standing :=
  ⟨rfl, publish_orderly { cpu with status := .halted, state := cpu.state.halt } rfl fun _ => rfl⟩

theorem fail_orderly (cpu : Cpu) (fault : Fault) :
    (cpu.fail fault).Orderly waits Settled cpu.standing :=
  ⟨rfl, publish_orderly { cpu with status := .faulted fault } rfl fun _ => rfl⟩

theorem perform_orderly (cpu : Cpu) {operation : Operation} {instruction : Instruction}
    (upcoming : cpu.upcoming? = some (operation, instruction)) :
    (cpu.perform operation instruction).Orderly (fun rest => Awaits (.receive rest)) Settled
      cpu.standing := by
  unfold perform
  dsimp only
  cases executed : Machine.execute operation instruction cpu.state with
  | error fault => exact fail_orderly cpu fault
  | ok effect =>
    cases effect with
    | proceed state target => exact complete_orderly { cpu with state } target
    | store address value =>
      exact complete_orderly { cpu with state := cpu.state.setMemory address value } _
    | halt => exact halt_orderly { cpu with state := cpu.state.complete cpu.state.pc }
    | output value =>
      apply Dialogue.orderly_bind
      exact emit_orderly cpu value fun observed => complete_orderly { cpu with observed } _
    | input dest =>
      obtain rfl := Machine.eq_of_operation? rfl executed
      cases executed
      apply Dialogue.orderly_bind
      apply read_orderly
      · exact fun observed => ⟨{ cpu with observed }, instruction, upcoming, rfl⟩
      · intro value observed supplied
        exact complete_orderly
          { cpu with
            observed, supplied, state := cpu.state.setRegister instruction.dest value } _

/-- When a request has been received, nothing comes before its answer. -/
theorem exists_receive_of_asked {dialogue : Dialogue Cpu} {standing : Standing}
    (orderly : dialogue.Orderly waits Settled standing) (asked : standing.asked = true) :
    ∃ rest, dialogue = .receive rest ∧ waits rest := by
  cases dialogue with
  | receive rest => exact ⟨rest, rfl, orderly.1.2.2⟩
  | done cpu =>
    rw [show standing = cpu.standing from orderly] at asked
    cases asked
  | note n next => cases orderly.1.symm.trans asked
  | publish event next => cases orderly.1.1.symm.trans asked

/-- A cycle keeps to the protocol, and waits for a value only in the middle of an `IN`. -/
theorem step_orderly (cpu : Cpu) :
    cpu.step.Orderly (fun rest => Awaits (.receive rest)) Settled cpu.standing := by
  let started : Cpu := { cpu with status := .running }
  unfold step
  split
  · exact rfl
  · dsimp only
    cases fetched : cpu.program[cpu.state.pc]? with
    | none => exact ⟨rfl, halt_orderly started⟩
    | some instruction =>
      dsimp only
      cases decoded : cpu.architecture.operation? instruction.opcode with
      | none => exact fail_orderly started _
      | some operation =>
        exact ⟨rfl, perform_orderly started (upcoming?_of_operation fetched decoded)⟩

theorem start_orderly (cpu : Cpu) : cpu.start.Orderly waits Settled cpu.standing := by
  unfold start
  split
  · exact ⟨rfl, rfl⟩
  · exact rfl

end Cpu
end Minicomputer
