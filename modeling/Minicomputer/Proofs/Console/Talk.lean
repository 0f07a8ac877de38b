import Minicomputer.Console.Conversation
import Minicomputer.Proofs.Console.Handling
import Minicomputer.Proofs.Machine.Core

/-!
# What a dialogue comes to at a console

A processor that publishes an event need not wait until the console has handled it.  So it does not
always know whether the console is still there, and different hosts may answer the same dialogue
differently.  `Dialogue.After` says that a dialogue comes to the same end whatever these answers
are: the events are handled in their order, and the answer to an event that is published to a
console that has given up is open.

* `Dialogue.After` -- a condition holds at the end of a dialogue, for all admissible answers;
* `Dialogue.After.run_host` -- the host that handles every event at once answers admissibly;
* `Cpu.step_after` -- what a cycle comes to, and that it waits only for values that are sent.
-/

namespace Minicomputer

/-- A console, and the values that it has sent and nobody has received yet. -/
structure Talk where
  console : Console
  replies : List UInt16

namespace Talk

/-- The console handles an event. -/
def handle (talk : Talk) (event : Event) : Talk where
  console := (talk.console.handle event).2
  replies := talk.replies ++ (talk.console.handle event).1.toList

variable {talk : Talk}

theorem handle_of_hasFailed (failed : talk.console.hasFailed = true) (event : Event) :
    talk.handle event = talk := by
  unfold handle
  rw [Console.handle_of_hasFailed failed]
  exact congrArg (mk talk.console) (List.append_nil _)

theorem handle_snapshot (talk : Talk) (state : MachineState) :
    talk.handle (.snapshot state) = talk := by
  unfold handle
  rw [Console.handle_snapshot]
  exact congrArg (mk talk.console) (List.append_nil _)

theorem handle_of_ne_request (event : Event) (other : event ≠ .inputRequested) :
    talk.handle event = ⟨(talk.console.handle event).2, talk.replies⟩ := by
  unfold handle
  rw [Console.reply_of_ne_request other]
  exact congrArg (mk _) (List.append_nil _)

end Talk

/-! ## The end of a dialogue -/

namespace Dialogue

variable {α β : Type} {post : α → Talk → Prop}

/-- However the dialogue goes on, the condition holds at its end.  An event is received, unless the
console has given up; then it may also be refused.  A value that is waited for has been sent, or
the console will send no more. -/
def After (post : α → Talk → Prop) : Dialogue α → Talk → Prop
  | done value, talk => post value talk
  | note _ next, talk => next.After post talk
  | publish event next, talk =>
    (next true).After post (talk.handle event) ∧
      (talk.console.hasFailed = true → (next false).After post talk)
  | receive next, talk =>
    match talk.replies with
    | value :: replies => (next (some value)).After post ⟨talk.console, replies⟩
    | [] => talk.console.phase ≠ .answering ∧ (next none).After post talk

theorem after_bind {dialogue : Dialogue α} {next : α → Dialogue β} {post : β → Talk → Prop}
    {talk : Talk} (h : dialogue.After (fun value talk => (next value).After post talk) talk) :
    (dialogue.bind next).After post talk := by
  induction dialogue generalizing talk with
  | done value => exact h
  | note n rest ih => exact ih h
  | publish event rest ih =>
    obtain ⟨received, refused⟩ := h
    exact ⟨ih true received, fun failed => ih false (refused failed)⟩
  | receive rest ih =>
    rcases talk with ⟨console, _ | ⟨value, replies⟩⟩
    · obtain ⟨deaf, later⟩ := h
      exact ⟨deaf, ih none later⟩
    · exact ih (some value) h

end Dialogue

/-! ## Handling events at once -/

namespace Conversation

/-- The conversation without its log. -/
def talk (conversation : Conversation) : Talk :=
  ⟨conversation.console, conversation.replies.toList⟩

theorem publish_of_hasFailed {conversation : Conversation}
    (failed : conversation.console.hasFailed = true) (event : Event) :
    conversation.publish event = (false, conversation) := by
  rw [publish, if_pos failed]

theorem publish_of_not_hasFailed {conversation : Conversation}
    (listening : ¬ conversation.console.hasFailed = true) (event : Event) :
    (conversation.publish event).1 = true ∧
      (conversation.publish event).2.talk = conversation.talk.handle event := by
  rw [publish, if_neg listening]
  unfold talk Talk.handle
  rcases conversation.console.handle event with ⟨_ | reply, console⟩
  · simp
  · simp

theorem receive_of_talk {conversation : Conversation} :
    (conversation.talk.replies = [] ∧ conversation.receive = (none, conversation)) ∨
      ∃ value replies, conversation.talk.replies = value :: replies ∧
        conversation.receive.1 = some value ∧
        conversation.receive.2.talk = ⟨conversation.talk.console, replies⟩ := by
  unfold receive talk
  cases popped : conversation.replies.pop? with
  | none => exact .inl ⟨Queue.pop?_eq_none_iff.mp popped, rfl⟩
  | some pair =>
    obtain ⟨value, rest⟩ := pair
    exact .inr ⟨value, rest.toList, Queue.toList_of_pop? popped, rfl, rfl⟩

end Conversation

/-- A host that handles every event at once answers as a dialogue may be answered. -/
theorem Dialogue.After.run_host {α : Type} {post : α → Talk → Prop} {dialogue : Dialogue α}
    {conversation : Conversation} (h : dialogue.After post conversation.talk) :
    post (dialogue.run Conversation.host conversation).1
      (dialogue.run Conversation.host conversation).2.talk := by
  induction dialogue generalizing conversation with
  | done value => exact h
  | note n rest ih => exact ih h
  | publish event rest ih =>
    obtain ⟨received, refused⟩ := h
    show post ((rest (conversation.publish event).1).run _ (conversation.publish event).2).1
      ((rest (conversation.publish event).1).run _ (conversation.publish event).2).2.talk
    by_cases failed : conversation.console.hasFailed = true
    · rw [Conversation.publish_of_hasFailed failed]
      exact ih false (refused failed)
    · have ⟨answer, handled⟩ := Conversation.publish_of_not_hasFailed failed event
      rw [answer]
      exact ih true (handled ▸ received)
  | receive rest ih =>
    show post ((rest conversation.receive.1).run _ conversation.receive.2).1
      ((rest conversation.receive.1).run _ conversation.receive.2).2.talk
    unfold After at h
    rcases Conversation.receive_of_talk with ⟨none, received⟩ | ⟨value, replies, some, answer, left⟩
    · rw [none] at h
      rw [received]
      exact ih _ h.2
    · rw [some] at h
      rw [answer]
      exact ih _ (left ▸ h)

/-! ## Turns to the outside -/

namespace Cpu

/-- Whoever is not told about events any more, or supplies no more values, could not use them. -/
structure Attended (cpu : Cpu) (talk : Talk) : Prop where
  observed : cpu.observed = true ∨ talk.console.hasFailed = true
  supplied : cpu.supplied = true ∨ talk.console.phase ≠ .answering

variable {cpu : Cpu} {talk : Talk}

theorem Attended.handle (attended : cpu.Attended talk) (event : Event) :
    cpu.Attended (talk.handle event) := by
  refine ⟨?_, ?_⟩
  · rcases attended.observed with observed | failed
    · exact .inl observed
    · rw [Talk.handle_of_hasFailed failed]
      exact .inr failed
  · rcases attended.supplied with supplied | deaf
    · exact .inl supplied
    · exact .inr (Console.handle_of_ne_answering deaf event).2

theorem publish_after {post : Cpu → Talk → Prop} (attended : cpu.Attended talk) (event : Event)
    (h : ∀ cpu', cpu'.detached = cpu.detached → cpu'.Attended (talk.handle event) →
      post cpu' (talk.handle event)) :
    (cpu.publish event).After post talk := by
  unfold publish
  split
  next observed =>
    refine ⟨h cpu rfl (attended.handle event), fun failed => ?_⟩
    -- The console has not handled the event, but it would have done nothing about it.
    rw [Talk.handle_of_hasFailed failed] at h
    exact h { cpu with observed := false } rfl ⟨.inr failed, attended.supplied⟩
  next unobserved =>
    have failed := attended.observed.resolve_left unobserved
    rw [Talk.handle_of_hasFailed failed] at h
    exact h cpu rfl attended

theorem complete_after {post : Cpu → Talk → Prop} (attended : cpu.Attended talk) (target : Nat)
    (h : ∀ cpu', cpu'.detached = cpu.detached.withCore ⟨cpu.status, cpu.state.complete target⟩ →
      cpu'.Attended talk → post cpu' talk) :
    (cpu.complete target).After post talk := by
  unfold complete
  dsimp only
  split
  · apply publish_after
    · exact ⟨attended.observed, attended.supplied⟩
    · rw [Talk.handle_snapshot]
      exact h
  · exact h _ rfl ⟨attended.observed, attended.supplied⟩

theorem halt_after {post : Cpu → Talk → Prop} (attended : cpu.Attended talk)
    (h : ∀ cpu', cpu'.detached = cpu.detached.withCore ⟨.halted, cpu.state.halt⟩ →
      cpu'.Attended (talk.handle (.halted cpu.state.halt)) →
      post cpu' (talk.handle (.halted cpu.state.halt))) :
    cpu.halt.After post talk := by
  apply publish_after
  · exact ⟨attended.observed, attended.supplied⟩
  · exact h

theorem fail_after {post : Cpu → Talk → Prop} (attended : cpu.Attended talk) (fault : Fault)
    (h : ∀ cpu', cpu'.detached = cpu.detached.withCore ⟨.faulted fault, cpu.state⟩ →
      cpu'.Attended (talk.handle (.faulted fault cpu.state)) →
      post cpu' (talk.handle (.faulted fault cpu.state))) :
    (cpu.fail fault).After post talk := by
  apply publish_after
  · exact ⟨attended.observed, attended.supplied⟩
  · exact h

theorem emit_after {post : Cpu → Talk → Prop} (attended : cpu.Attended talk) (value : UInt16)
    (h : ∀ cpu', cpu'.detached = cpu.detached → cpu'.Attended (talk.handle (.output value)) →
      post cpu' (talk.handle (.output value))) :
    (cpu.emit value).After post talk := by
  unfold emit
  split
  next => exact publish_after attended _ h
  next unobserved =>
    have failed := attended.observed.resolve_left unobserved
    rw [Talk.handle_of_hasFailed failed] at h
    exact h cpu rfl attended

/-- A value that is waited for has been sent or will never be: nobody waits in vain. -/
theorem read_after {post : UInt16 × Cpu → Talk → Prop} (attended : cpu.Attended talk)
    (quiet : talk.replies = [])
    (h : ∀ cpu', cpu'.detached = cpu.detached →
      cpu'.Attended ⟨(talk.console.handle .inputRequested).2, []⟩ →
      post ((talk.console.handle .inputRequested).1.getD 0, cpu')
        ⟨(talk.console.handle .inputRequested).2, []⟩) :
    cpu.read.After post talk := by
  unfold read
  split
  next =>
    apply Dialogue.after_bind
    apply publish_after attended
    intro cpu' same attended'
    unfold Dialogue.After Talk.handle
    rw [quiet]
    cases reply : (talk.console.handle .inputRequested).1 with
    | some value =>
      rw [reply] at h
      exact h cpu' same ⟨attended'.observed, attended'.supplied⟩
    | none =>
      have deaf := Console.phase_ne_answering_of_no_reply reply
      rw [reply] at h
      exact ⟨deaf, h { cpu' with supplied := false } same ⟨attended'.observed, .inr deaf⟩⟩
  next unsupplied =>
    -- Nobody is asked, and asking would have changed nothing.
    have deaf := attended.supplied.resolve_left unsupplied
    rw [Console.handle_request_of_ne_answering deaf] at h
    rcases talk with ⟨console, replies⟩
    obtain rfl : replies = [] := quiet
    exact h cpu rfl attended

end Cpu
end Minicomputer
