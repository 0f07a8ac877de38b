import Minicomputer.Proofs.Console.Duet
import Minicomputer.Proofs.Console.Handling

/-!
# Prompting loses and invents nothing

A console that prints to an output that takes everything, with an input whose lines are texts, sends
back the values on these lines in their order, one for each request, as long as there are any.  What
it does about an event depends only on how many requests have come before.

* `Console.valueOn?`, `Console.questions` -- the value on a line, and what is printed to get it;
* `Console.Handles` -- what the console does about one event;
* `Console.Stands`, `Console.Stands.handle` -- what holds between two events, and that an event
  keeps it;
* `Console.serve` -- a console with the channel to which it sends its values;
* `Console.prompting_loses_nothing` -- all of this about a list of events.
-/

namespace Minicomputer
namespace Console

/-! ## Lines and questions -/

/-- The value on a line of input, if there is one. -/
def valueOn? (line : Bytes) : Option UInt16 :=
  (Text.ofBytes? line).bind fun text => wordOf? (Text.trimChars text.toList)

/-- The line is a text. -/
def IsText (line : Bytes) : Prop :=
  (Text.ofBytes? line).isSome = true

instance : DecidablePred IsText :=
  fun line => inferInstanceAs (Decidable ((Text.ofBytes? line).isSome = true))

/-- What is printed when so many lines without a value are tried, and then another one. -/
def questions : Nat → String
  | 0 => promptText
  | refused + 1 => promptText ++ complaint ++ questions refused

/-- What is printed about an event by a console that has no values. -/
def report (event : Event) : String :=
  (respond ⟨[], .unlimited, .printing⟩ event).text

/-- The console after it has printed a text. -/
def prints (console : Console) (text : String) : Console :=
  { console with output := (console.output.print (Text.toBytes text)).2 }

theorem readLine_of_isText {line : Bytes} (isText : IsText line) :
    readLine line = some (valueOn? line) := by
  obtain ⟨text, read⟩ := Option.isSome_iff_exists.mp isText
  rw [readLine, valueOn?, read]
  rfl

/-- Lines without a value are passed over, up to a line with one. -/
theorem prompt_of_value {refused rest : List Bytes} {line : Bytes} {value : UInt16}
    (texts : ∀ line' ∈ refused ++ line :: rest, IsText line')
    (invalid : ∀ line' ∈ refused, valueOn? line' = none) (valid : valueOn? line = some value) :
    prompt (refused ++ line :: rest) = ⟨questions refused.length, .reply value, rest⟩ := by
  induction refused with
  | nil =>
    have read : readLine line = some (some value) := by
      rw [readLine_of_isText (texts line List.mem_cons_self), valid]
    rw [List.nil_append, prompt, read]
    rfl
  | cons first refused ih =>
    have read : readLine first = some none := by
      rw [readLine_of_isText (texts first List.mem_cons_self), invalid first List.mem_cons_self]
    have later := ih (fun line' member => texts line' (List.mem_cons_of_mem _ member))
      (fun line' member => invalid line' (List.mem_cons_of_mem _ member))
    rw [List.cons_append, prompt, read]
    dsimp only
    rw [later]
    rfl

/-- If there is no line with a value all lines are passed over, and there is one further prompt. -/
theorem prompt_of_no_value {lines : List Bytes} (texts : ∀ line ∈ lines, IsText line)
    (invalid : ∀ line ∈ lines, valueOn? line = none) :
    prompt lines = ⟨questions lines.length, .exhausted, []⟩ := by
  induction lines with
  | nil => rfl
  | cons first lines ih =>
    have read : readLine first = some none := by
      rw [readLine_of_isText (texts first List.mem_cons_self), invalid first List.mem_cons_self]
    have later := ih (fun line member => texts line (List.mem_cons_of_mem _ member))
      (fun line member => invalid line (List.mem_cons_of_mem _ member))
    rw [prompt, read]
    dsimp only
    rw [later]
    rfl

/-! ## One event -/

/-- What a console does about an event after so many requests, with these values on its input. -/
inductive Handles (values : List UInt16) (asked : Nat) (before : Console) :
    Event → Option UInt16 → Console → Prop
  | reported {event : Event} (other : event ≠ .inputRequested) :
      Handles values asked before event none (before.prints (report event))
  /-- It reads as far as the next value, which is the next of all values. -/
  | answered {refused rest : List Bytes} {line : Bytes} {value : UInt16}
      (next : values[asked]? = some value) (lines : before.lines = refused ++ line :: rest)
      (invalid : ∀ line' ∈ refused, valueOn? line' = none) (valid : valueOn? line = some value) :
      Handles values asked before .inputRequested (some value)
        { before.prints (questions refused.length) with lines := rest }
  /-- There are no more values, so it reads as far as the end. -/
  | exhausted (nothing : asked = values.length)
      (invalid : ∀ line ∈ before.lines, valueOn? line = none) :
      Handles values asked before .inputRequested none
        { before.prints (questions before.lines.length) with lines := [], phase := .printing }
  | unanswered (beyond : values.length < asked) :
      Handles values asked before .inputRequested none before

/-- How a console stands between two events, after so many requests. -/
structure Stands (values : List UInt16) (asked : Nat) (console : Console) : Prop where
  unlimited : console.output.room = none
  texts : ∀ line ∈ console.lines, IsText line
  left : console.lines.filterMap valueOn? = values.drop asked
  phase : console.phase = if values.length < asked then .printing else .answering

section

variable {values : List UInt16} {asked : Nat} {console : Console} {event : Event}

theorem room_prints (unlimited : console.output.room = none) (text : String) :
    (console.prints text).output.room = none := by
  rw [prints, Output.print, unlimited]

/-- What is said is printed, so only the reaction is left. -/
theorem handle_of_unlimited (unlimited : console.output.room = none)
    (going : ¬ console.hasFailed) (event : Event) :
    console.handle event =
      let after := { console.prints (console.respond event).text with
        lines := (console.respond event).rest }
      match (console.respond event).reaction with
      | .nothing => (none, after)
      | .reply value => (some value, after)
      | .exhausted => (none, { after with phase := .printing })
      | .unreadable => (none, { after with phase := .failed .unreadableInput }) := by
  have taken := (Output.print_of_room_eq_none unlimited
    (Text.toBytes (console.respond event).text)).1
  unfold handle prints
  rw [if_neg going]
  dsimp only
  rcases printed : console.output.print (Text.toBytes (console.respond event).text) with
    ⟨all, output⟩
  rw [printed] at taken
  obtain rfl : all = true := taken
  rfl

/-- About anything but a request the console says the same whatever its input is. -/
theorem respond_of_ne_request (other : event ≠ .inputRequested) :
    console.respond event = ⟨report event, .nothing, console.lines⟩ := by
  cases event with
  | inputRequested => exact absurd rfl other
  | snapshot _ | output _ | halted _ | faulted _ _ => rfl

namespace Stands

theorem going (stands : Stands values asked console) : ¬ console.hasFailed := by
  intro failed
  obtain ⟨reason, phase⟩ := hasFailed_iff.mp failed
  have phase' := phase.symm.trans stands.phase
  split at phase'
  · cases phase'
  · cases phase'

theorem new (input : Bytes) (texts : ∀ line ∈ Text.linesAt 10 input, IsText line) :
    Stands ((Text.linesAt 10 input).filterMap valueOn?) 0 (Console.new input .unlimited) :=
  ⟨rfl, texts, rfl, (if_neg (Nat.not_lt_zero _)).symm⟩

/-- An event that is no request is reported, and nothing else changes. -/
theorem handle_other (stands : Stands values asked console) (other : event ≠ .inputRequested) :
    console.handle event = (none, console.prints (report event)) ∧
      Stands values asked (console.prints (report event)) := by
  refine ⟨?_, room_prints stands.unlimited _, stands.texts, stands.left, stands.phase⟩
  rw [handle_of_unlimited stands.unlimited stands.going, respond_of_ne_request other]
  rfl

/-- A request is answered with the next value. -/
theorem handle_request_of_value (stands : Stands values asked console) {value : UInt16}
    (next : values[asked]? = some value) :
    ∃ refused line rest, console.lines = refused ++ line :: rest ∧
      (∀ line' ∈ refused, valueOn? line' = none) ∧ valueOn? line = some value ∧
      console.handle .inputRequested =
        (some value, { console.prints (questions refused.length) with lines := rest }) ∧
      Stands values (asked + 1) { console.prints (questions refused.length) with lines := rest } := by
  obtain ⟨below, here⟩ := List.getElem?_eq_some_iff.mp next
  have left : console.lines.filterMap valueOn? = value :: values.drop (asked + 1) := by
    rw [stands.left, List.drop_eq_getElem_cons below, here]
  have answering : console.phase = .answering :=
    stands.phase.trans (if_neg (Nat.not_lt_of_lt below))
  obtain ⟨refused, line, rest, lines, invalid, valid, left'⟩ := List.filterMap_eq_cons_iff.mp left
  have texts := stands.texts
  rw [lines] at texts
  refine ⟨refused, line, rest, lines, invalid, valid, ?_, ?_⟩
  · rw [handle_of_unlimited stands.unlimited stands.going, respond_request, if_pos answering, lines,
      prompt_of_value texts invalid valid]
  · refine ⟨room_prints stands.unlimited _, ?_, left', ?_⟩
    · intro line' member
      exact texts line' (List.mem_append_right _ (List.mem_cons_of_mem _ member))
    · exact answering.trans (if_neg (Nat.not_lt_of_le below)).symm

/-- The first request after the last value finds the end of the input. -/
theorem handle_request_of_end (stands : Stands values asked console)
    (nothing : asked = values.length) :
    (∀ line ∈ console.lines, valueOn? line = none) ∧
      console.handle .inputRequested =
        (none, { console.prints (questions console.lines.length) with
          lines := [], phase := .printing }) ∧
      Stands values (asked + 1) { console.prints (questions console.lines.length) with
        lines := [], phase := .printing } := by
  have left : console.lines.filterMap valueOn? = [] := by
    rw [stands.left, nothing, List.drop_length]
  have invalid := List.filterMap_eq_nil_iff.mp left
  have answering : console.phase = .answering :=
    stands.phase.trans (if_neg (Nat.not_lt_of_le (Nat.le_of_eq nothing)))
  refine ⟨invalid, ?_, room_prints stands.unlimited _, List.forall_mem_nil _, ?_, ?_⟩
  · rw [handle_of_unlimited stands.unlimited stands.going, respond_request, if_pos answering,
      prompt_of_no_value stands.texts invalid]
  · rw [nothing, List.drop_of_length_le (Nat.le_succ _)]
    rfl
  · exact (if_pos (Nat.lt_succ_of_le (Nat.le_of_eq nothing.symm))).symm

/-- Every later request finds a console that does not ask any more. -/
theorem handle_request_of_beyond (stands : Stands values asked console)
    (beyond : values.length < asked) :
    console.handle .inputRequested = (none, console) ∧ Stands values (asked + 1) console := by
  have printing : console.phase = .printing := stands.phase.trans (if_pos beyond)
  have deaf : console.phase ≠ .answering := by
    rw [printing]
    exact nofun
  refine ⟨handle_request_of_ne_answering deaf, stands.unlimited, stands.texts, ?_, ?_⟩
  · rw [stands.left, List.drop_of_length_le (Nat.le_of_lt beyond),
      List.drop_of_length_le (Nat.le_succ_of_le (Nat.le_of_lt beyond))]
  · rw [printing, if_pos (Nat.lt_succ_of_lt beyond)]

/-- One event. -/
theorem handle (stands : Stands values asked console) (event : Event) :
    Handles values asked console event (console.handle event).1 (console.handle event).2 ∧
      Stands values (asked + if event = .inputRequested then 1 else 0)
        (console.handle event).2 := by
  by_cases request : event = .inputRequested
  · -- What becomes of a request depends on how many values there are for those before it.
    rw [if_pos request, request]
    rcases Nat.lt_trichotomy asked values.length with below | nothing | beyond
    · obtain ⟨refused, line, rest, lines, invalid, valid, handled, stands'⟩ :=
        stands.handle_request_of_value (List.getElem?_eq_getElem below)
      rw [handled]
      exact ⟨.answered (List.getElem?_eq_getElem below) lines invalid valid, stands'⟩
    · obtain ⟨invalid, handled, stands'⟩ := stands.handle_request_of_end nothing
      rw [handled]
      exact ⟨.exhausted nothing invalid, stands'⟩
    · obtain ⟨handled, stands'⟩ := stands.handle_request_of_beyond beyond
      rw [handled]
      exact ⟨.unanswered beyond, stands'⟩
  · obtain ⟨handled, stands'⟩ := stands.handle_other request
    rw [if_neg request, handled]
    exact ⟨.reported request, stands'⟩

end Stands

/-! ## Lists of events -/

/-- A value is sent exactly if there is one left for the request. -/
theorem Handles.reply_eq {after : Console} {reply : Option UInt16}
    (handles : Handles values asked console event reply after) :
    reply = if event = .inputRequested then values[asked]? else none := by
  cases handles with
  | reported other => exact (if_neg other).symm
  | answered next _ _ _ => exact next.symm
  | exhausted nothing _ => exact (List.getElem?_eq_none (Nat.le_of_eq nothing.symm)).symm
  | unanswered beyond => exact (List.getElem?_eq_none (Nat.le_of_lt beyond)).symm

/-- The first of some more values, and the others. -/
theorem take_drop_succ (values : List UInt16) (asked n : Nat) :
    values[asked]?.toList ++ (values.drop (asked + 1)).take n =
      (values.drop asked).take (n + 1) := by
  -- Beyond the last value there is nothing on either side.
  rcases Nat.lt_or_ge asked values.length with below | beyond
  · rw [List.getElem?_eq_getElem below, List.drop_eq_getElem_cons below, List.take_succ_cons]
    rfl
  · rw [List.getElem?_eq_none beyond, List.drop_of_length_le beyond,
      List.drop_of_length_le (Nat.le_succ_of_le beyond), List.take_nil, List.take_nil]
    rfl

/-- The values are sent one by one, and the console stands as the number of requests says. -/
theorem Stands.render (stands : Stands values asked console) (events : List Event) :
    (console.render events).1 = (values.drop asked).take (events.count .inputRequested) ∧
      Stands values (asked + events.count .inputRequested) (console.render events).2 := by
  induction events generalizing asked console with
  | nil => exact ⟨rfl, stands⟩
  | cons event events ih =>
    obtain ⟨handles, next⟩ := stands.handle event
    obtain ⟨replies, last⟩ := ih next
    rw [render_cons, replies, handles.reply_eq, List.count_cons]
    by_cases request : event = .inputRequested
    · rw [if_pos request] at last ⊢
      rw [if_pos request, if_pos (beq_iff_eq.mpr request)]
      refine ⟨take_drop_succ values asked _, ?_⟩
      rw [Nat.add_comm _ 1, ← Nat.add_assoc]
      exact last
    · rw [if_neg request] at last ⊢
      rw [if_neg request, if_neg (fun same => request (beq_iff_eq.mp same))]
      exact ⟨rfl, last⟩

/-! ## The channel of the values -/

/-- A console that handles events and sends its values through a channel, and what it has made of
both. -/
def serve (console : Console) (replies : Channel UInt16) : List Event → Console × Channel UInt16
  | [] => (console, replies)
  | event :: events =>
    let (reply, next) := console.handle event
    next.serve (Duet.deliver replies reply next.phase) events

end

/-! ## The result -/

end Console
end Minicomputer
