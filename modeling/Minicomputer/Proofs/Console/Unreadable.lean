import Minicomputer.Console.Conversation
import Minicomputer.Proofs.Console.Prompting
import Minicomputer.Proofs.Text.Utf8

/-!
# Input that is no text

A console whose output takes everything gives up for one reason only: it has come to a line of its
input that is no text, and then the input as a whole is none.

* `Console.Reads`, `Console.Reads.handle` -- what is true of such a console;
* `Cpu.failure_of_run` -- what follows at the end of a run.
-/

namespace Minicomputer

/-! ## Consoles -/

namespace Console

/-- The console reads these lines: it has only such lines before it, and if it has given up there is
one among them that is no text, because its output takes everything. -/
structure Reads (lines : List Bytes) (console : Console) : Prop where
  unlimited : console.output.room = none
  left : ∀ line ∈ console.lines, line ∈ lines
  reason : ∀ cause, console.phase = .failed cause →
    cause = .unreadableInput ∧ ∃ line ∈ lines, ¬ IsText line

/-- What is left after prompting was there before, and what the console cannot read is no text. -/
theorem prompt_lines (lines : List Bytes) :
    (∀ line ∈ (prompt lines).rest, line ∈ lines) ∧
      ((prompt lines).reaction = .unreadable → ∃ line ∈ lines, ¬ IsText line) := by
  induction lines with
  | nil => exact ⟨List.forall_mem_nil _, nofun⟩
  | cons first rest ih =>
    unfold prompt
    split
    next unread =>
      refine ⟨fun line => List.mem_cons_of_mem first, fun _ => ⟨first, List.mem_cons_self, ?_⟩⟩
      intro isText
      cases unread.symm.trans (readLine_of_isText isText)
    next => exact ⟨fun line => List.mem_cons_of_mem first, nofun⟩
    next =>
      obtain ⟨left, later⟩ := ih
      refine ⟨fun line member => List.mem_cons_of_mem first (left line member), fun unread => ?_⟩
      obtain ⟨line, member, noText⟩ := later unread
      exact ⟨line, List.mem_cons_of_mem first member, noText⟩

variable {lines : List Bytes} {console : Console}

theorem Reads.new (input : Bytes) :
    Reads (Text.linesAt 10 input) (Console.new input .unlimited) :=
  ⟨rfl, fun _ member => member, nofun⟩

/-- What holds of prompting holds of whatever the console does. -/
theorem Reads.respond (reads : Reads lines console) (event : Event) :
    (∀ line ∈ (console.respond event).rest, line ∈ lines) ∧
      ((console.respond event).reaction = .unreadable → ∃ line ∈ lines, ¬ IsText line) := by
  by_cases asked : event = .inputRequested ∧ console.phase = .answering
  · obtain ⟨rfl, answering⟩ := asked
    rw [respond_request, if_pos answering]
    obtain ⟨left, unreadable⟩ := prompt_lines console.lines
    refine ⟨fun line member => reads.left line (left line member), fun reaction => ?_⟩
    obtain ⟨line, member, noText⟩ := unreadable reaction
    exact ⟨line, reads.left line member, noText⟩
  · -- Without a question no line is looked at.
    have nothing := respond_reaction_eq_nothing_iff.mpr asked
    have rest : (console.respond event).rest = console.lines := by
      cases event with
      | inputRequested => rw [respond_request, if_neg fun answering => asked ⟨rfl, answering⟩]
      | snapshot _ | output _ | halted _ | faulted _ _ => rfl
    rw [nothing, rest]
    exact ⟨reads.left, nofun⟩

theorem Reads.handle (reads : Reads lines console) (event : Event) :
    Reads lines (console.handle event).2 := by
  by_cases failed : console.hasFailed
  · rw [handle_of_hasFailed failed]
    exact reads
  · obtain ⟨left, unreadable⟩ := reads.respond event
    have room := room_prints reads.unlimited (console.respond event).text
    rw [handle_of_unlimited reads.unlimited failed]
    dsimp only
    cases reaction : (console.respond event).reaction with
    | nothing => exact ⟨room, left, reads.reason⟩
    | reply value => exact ⟨room, left, reads.reason⟩
    | exhausted => exact ⟨room, left, nofun⟩
    | unreadable =>
      refine ⟨room, left, fun cause phase => ?_⟩
      cases phase
      exact ⟨rfl, unreadable reaction⟩

end Console

/-! ## Conversations -/

namespace Conversation

theorem host_maintains_reads (lines : List Bytes) :
    host.Maintains fun conversation => Console.Reads lines conversation.console where
  note _ _ reads := reads
  publish event conversation reads := by
    obtain ⟨console, replies, entries⟩ := conversation
    dsimp only [host, publish]
    split
    · exact reads
    · have handled : Console.Reads lines (console.handle event).2 := reads.handle event
      revert handled
      rcases console.handle event with ⟨reply, next⟩
      cases reply with
      | none => exact id
      | some value => exact id
  receive conversation reads := by
    obtain ⟨console, replies, entries⟩ := conversation
    dsimp only [host, receive]
    cases replies.pop? with
    | none => exact reads
    | some popped => exact reads

end Conversation

/-- If the console has given up at the end of a run, its input is no text. -/
theorem Cpu.failure_of_run {cpu last : Cpu} {asked : Conversation → Bool} {fuel : Nat}
    {input : Bytes} {interrupted : Bool} {conversation : Conversation}
    (ran : cpu.run Conversation.host asked fuel (.new (.new input .unlimited)) =
      some (interrupted, last, conversation))
    (failed : conversation.console.hasFailed = true) :
    conversation.console.outcome = .error .unreadableInput ∧ Text.ofBytes? input = none := by
  have reads := (Conversation.host_maintains_reads (Text.linesAt 10 input)).run
    (Console.Reads.new input) ran
  obtain ⟨cause, phase⟩ := Console.hasFailed_iff.mp failed
  obtain ⟨rfl, line, member, noText⟩ := reads.reason cause phase
  refine ⟨by rw [Console.outcome, phase], ?_⟩
  cases read : Text.ofBytes? input with
  | none => rfl
  | some text =>
    obtain ⟨text', read'⟩ := Text.exists_text_of_mem_linesAt read member
    exact absurd (Option.isSome_iff_exists.mpr ⟨text', read'⟩) noText

end Minicomputer
