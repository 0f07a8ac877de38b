import Minicomputer.Proofs.Console.Writing

/-!
# Outputs that refuse

An output that has room for so many bytes cuts off what a console prints, and does nothing else.
Up to the event whose text does not fit, the console is the one whose output takes everything; with
this event it gives up, and the value that it would have sent is not sent.

* `Console.Keeps`, `Console.Refused` -- how the two consoles stand before and after;
* `Console.Keeps.handle`, `Console.Refused.handle` -- what one event makes of that;
* `Console.refusal_truncates` -- what a list of events makes of it.
-/

namespace Minicomputer
namespace Console

/-- Everything that the console with the unlimited output has printed has found room, and the two
consoles are the same otherwise. -/
structure Keeps (room : Nat) (full cut : Console) : Prop where
  lines : cut.lines = full.lines
  phase : cut.phase = full.phase
  accepted : full.phase ≠ .failed .refusedOutput
  unlimited : full.output.room = none
  bytes : cut.output.bytes = full.output.bytes
  fits : full.output.bytes.length ≤ room
  left : cut.output.room = some (room - full.output.bytes.length)

/-- The console has given up where there was no room any more for what the other one has
printed. -/
structure Refused (room : Nat) (full cut : Console) : Prop where
  unlimited : full.output.room = none
  phase : cut.phase = .failed .refusedOutput
  bytes : cut.output.bytes = full.output.bytes.take room
  beyond : room < full.output.bytes.length

section

variable {room : Nat} {full cut : Console} {event : Event}

/-! ## One event -/

theorem Keeps.hasFailed_eq (keeps : Keeps room full cut) : cut.hasFailed = full.hasFailed := by
  simp only [hasFailed, keeps.phase]

/-- The two have the same to say. -/
theorem Keeps.respond_eq (keeps : Keeps room full cut) (event : Event) :
    cut.respond event = full.respond event := by
  cases event with
  | inputRequested => simp only [respond_request, keeps.phase, keeps.lines]
  | snapshot _ | output _ | halted _ | faulted _ _ => simp only [respond, keeps.lines]

/-- After everything has been printed, the two do the same. -/
theorem Keeps.react (keeps : Keeps room full cut) {output output' : Output} (response : Response)
    (unlimited : output.room = none) (bytes : output'.bytes = output.bytes)
    (fits : output.bytes.length ≤ room)
    (left : output'.room = some (room - output.bytes.length)) :
    (cut.react output' response).1 = (full.react output response).1 ∧
      Keeps room (full.react output response).2 (cut.react output' response).2 := by
  unfold Console.react
  cases response.reaction with
  | nothing =>
    exact ⟨rfl, rfl, keeps.phase, keeps.accepted, unlimited, bytes, fits, left⟩
  | reply value =>
    exact ⟨rfl, rfl, keeps.phase, keeps.accepted, unlimited, bytes, fits, left⟩
  | exhausted => exact ⟨rfl, rfl, rfl, nofun, unlimited, bytes, fits, left⟩
  | unreadable => exact ⟨rfl, rfl, rfl, nofun, unlimited, bytes, fits, left⟩

/-- An output that takes everything takes what there is to say about an event. -/
theorem exists_handle_of_unlimited (unlimited : full.output.room = none)
    (going : ¬ full.hasFailed) (event : Event) :
    ∃ output, full.handle event = full.react output (full.respond event) ∧ output.room = none ∧
      output.bytes = full.output.bytes ++ Text.toBytes (full.respond event).text := by
  obtain ⟨taken, bytes⟩ :=
    Output.print_of_room_eq_none unlimited (Text.toBytes (full.respond event).text)
  have room : (full.output.print (Text.toBytes (full.respond event).text)).2.room = none := by
    simp [Output.print, unlimited]
  refine ⟨_, ?_, room, bytes⟩
  rw [handle_of_going going]
  rcases printed : full.output.print (Text.toBytes (full.respond event).text) with ⟨all, output⟩
  rw [printed] at taken
  obtain rfl : all = true := taken
  rfl

theorem output_react (console : Console) (output : Output) (response : Response) :
    (console.react output response).2.output = output := by
  unfold Console.react
  cases response.reaction with
  | nothing | reply _ | exhausted | unreadable => rfl

/-- An event either is handled as if there were room for everything, or there is no room for what
is said about it. -/
theorem Keeps.handle (keeps : Keeps room full cut) (event : Event) :
    ((cut.handle event).1 = (full.handle event).1 ∧
        Keeps room (full.handle event).2 (cut.handle event).2) ∨
      ((cut.handle event).1 = none ∧ Refused room (full.handle event).2 (cut.handle event).2) := by
  by_cases failed : full.hasFailed
  · have failed' : cut.hasFailed = true := keeps.hasFailed_eq.trans failed
    rw [handle_of_hasFailed failed, handle_of_hasFailed failed']
    exact .inl ⟨rfl, keeps⟩
  · have going : ¬ cut.hasFailed := by
      rw [keeps.hasFailed_eq]
      exact failed
    obtain ⟨output, handled, unlimited, bytes⟩ :=
      exists_handle_of_unlimited keeps.unlimited failed event
    generalize said : Text.toBytes (full.respond event).text = text at bytes
    have length : output.bytes.length = full.output.bytes.length + text.length := by
      rw [bytes, List.length_append]
    have written : cut.output.written.toList = full.output.bytes := keeps.bytes
    have fits := keeps.fits
    rw [handled, handle_of_going going, keeps.respond_eq, said, Output.print_of_room keeps.left]
    by_cases taken : text.length ≤ room - full.output.bytes.length
    · rw [decide_eq_true taken]
      left
      apply keeps.react _ unlimited
      · rw [bytes, List.take_of_length_le taken]
        simp [Output.bytes, written]
      · omega
      · rw [length, Nat.sub_add_eq]
    · -- The room that is left is filled with the beginning of the text.
      rw [decide_eq_false taken]
      refine .inr ⟨rfl, ?_, rfl, ?_, ?_⟩
      · rw [output_react]
        exact unlimited
      · rw [output_react, bytes, List.take_append, List.take_of_length_le fits]
        simp [Output.bytes, written]
      · rw [output_react, length]
        omega

/-- Once the output has refused, the other console may print more, but that makes no
difference. -/
theorem Refused.handle (refused : Refused room full cut) (event : Event) :
    cut.handle event = (none, cut) ∧ Refused room (full.handle event).2 cut := by
  have failed : cut.hasFailed = true := hasFailed_iff.mpr ⟨_, refused.phase⟩
  refine ⟨handle_of_hasFailed failed event, ?_⟩
  by_cases failed' : full.hasFailed
  · rw [handle_of_hasFailed failed']
    exact refused
  · obtain ⟨output, handled, unlimited, bytes⟩ :=
      exists_handle_of_unlimited refused.unlimited failed' event
    have beyond := refused.beyond
    rw [handled]
    refine ⟨?_, refused.phase, ?_, ?_⟩
    · rw [output_react]
      exact unlimited
    · calc
        cut.output.bytes
            = full.output.bytes.take room := refused.bytes
        _ = output.bytes.take room := by
              rw [bytes, List.take_append_of_le_length (Nat.le_of_lt beyond)]
        _ = (full.react output (full.respond event)).2.output.bytes.take room := by
              rw [output_react]
    · rw [output_react, bytes, List.length_append]
      omega

/-! ## Lists of events -/

theorem Refused.render (refused : Refused room full cut) (events : List Event) :
    cut.render events = ([], cut) ∧ Refused room (full.render events).2 cut := by
  induction events generalizing full with
  | nil => exact ⟨rfl, refused⟩
  | cons event events ih =>
    obtain ⟨handled, refused'⟩ := refused.handle event
    obtain ⟨rendered, last⟩ := ih refused'
    refine ⟨?_, last⟩
    rw [render_cons, handled]
    dsimp only
    rw [rendered]
    rfl

/-- Either there is room for everything, or there is an event whose text does not fit, and the
values that are sent are those sent before it. -/
theorem Keeps.render (keeps : Keeps room full cut) (events : List Event) :
    ((cut.render events).1 = (full.render events).1 ∧
        Keeps room (full.render events).2 (cut.render events).2) ∨
      Refused room (full.render events).2 (cut.render events).2 ∧
        ∃ before event after, events = before ++ event :: after ∧
          (full.render before).2.output.bytes.length ≤ room ∧
          room < (full.render (before ++ [event])).2.output.bytes.length ∧
          (cut.render events).1 = (full.render before).1 := by
  induction events generalizing full cut with
  | nil => exact .inl ⟨rfl, keeps⟩
  | cons event events ih =>
    rcases keeps.handle event with ⟨reply, keeps'⟩ | ⟨silent, refused⟩
    · rcases ih keeps' with
        ⟨replies, last⟩ | ⟨last, before, event', after, order, room', long, sent⟩
      · refine .inl ⟨?_, last⟩
        rw [render_cons, render_cons, reply, replies]
      · -- The event that does not fit is a later one.
        refine .inr ⟨last, event :: before, event', after, ?_, room', long, ?_⟩
        · rw [order, List.cons_append]
        · rw [render_cons, render_cons, reply, sent]
    · obtain ⟨rendered, last⟩ := refused.render events
      refine .inr ⟨?_, [], event, events, rfl, keeps.fits, refused.beyond, ?_⟩
      · rw [render_cons, render_cons, rendered]
        exact last
      · rw [render_cons, silent, rendered]
        rfl

/-! ## Outcomes -/

theorem Keeps.outcome_eq (keeps : Keeps room full cut) : cut.outcome = full.outcome := by
  simp only [outcome, keeps.phase]

/-- While there is room, it is not the output that a console fails of. -/
theorem Keeps.outcome_ne (keeps : Keeps room full cut) : cut.outcome ≠ .error .refusedOutput := by
  intro failed
  rw [keeps.outcome_eq, outcome] at failed
  split at failed
  next => cases failed
  next => cases failed
  next reason phase =>
    cases failed
    exact keeps.accepted phase

theorem Refused.outcome_eq (refused : Refused room full cut) :
    cut.outcome = .error .refusedOutput := by
  simp only [outcome, refused.phase]

end

/-! ## The result -/

/-- Let `printed` be what a console with an unlimited output has printed.  The console with room for
so many bytes fails because of its output exactly if there is more than that.  It prints as much of
it as there is room for, and sends the first of the values.  If everything finds room nothing is
different; otherwise there is a first event whose text does not fit, and the values are those that
are sent before this event.

It makes no difference whether the console prints at once what it has to say about an event, or
write by write. -/
theorem refusal_truncates (input : Bytes) (events : List Event) (room : Nat) :
    let console := Console.new input .unlimited
    let full := console.render events
    let cut := (Console.new input (.limited room)).render events
    let printed := full.2.output.bytes
    (cut.2.outcome = .error .refusedOutput ↔ room < printed.length) ∧
      cut.2.output.bytes = printed.take room ∧ cut.1 <+: full.1 ∧
      (printed.length ≤ room →
        cut.2.output.bytes = printed ∧ cut.1 = full.1 ∧ cut.2.outcome = full.2.outcome) ∧
      (room < printed.length → ∃ before event after, events = before ++ event :: after ∧
        (console.render before).2.output.bytes.length ≤ room ∧
        room < (console.render (before ++ [event])).2.output.bytes.length ∧
        cut.1 = (console.render before).1) ∧
      (∀ output,
        let atOnce := (Console.new input output).render events
        let piecewise := (Console.new input output).attendAll events
        piecewise.1 = atOnce.1 ∧ piecewise.2.output = atOnce.2.output ∧
          piecewise.2.outcome = atOnce.2.outcome) := by
  intro console full cut printed
  have begins : Keeps room console (Console.new input (.limited room)) :=
    ⟨rfl, rfl, nofun, rfl, rfl, Nat.zero_le room, rfl⟩
  have piecewise (output : Output) :
      let atOnce := (Console.new input output).render events
      let piecewise := (Console.new input output).attendAll events
      piecewise.1 = atOnce.1 ∧ piecewise.2.output = atOnce.2.output ∧
        piecewise.2.outcome = atOnce.2.outcome := by
    intro atOnce piecewise
    obtain ⟨replies, last⟩ := attendAll_resembles (.refl (Console.new input output)) events
    exact ⟨replies, last.output, last.outcome_eq⟩
  rcases begins.render events with ⟨replies, keeps⟩ | ⟨refused, before, event, after, order, fits,
    long, sent⟩
  · -- There has been room for everything.
    have small : printed.length ≤ room := keeps.fits
    refine ⟨?_, ?_, ?_, fun _ => ⟨keeps.bytes, replies, keeps.outcome_eq⟩, ?_, piecewise⟩
    · exact iff_of_false keeps.outcome_ne (Nat.not_lt_of_le small)
    · rw [List.take_of_length_le small]
      exact keeps.bytes
    · have sent : cut.1 = full.1 := replies
      exact sent ▸ List.prefix_rfl
    · exact fun beyond => absurd small (Nat.not_le_of_lt beyond)
  · have beyond : room < printed.length := refused.beyond
    refine ⟨iff_of_true refused.outcome_eq beyond, refused.bytes, ?_, ?_, ?_, piecewise⟩
    · -- The values sent before the event are the first ones of all.
      have whole : full.1 = (console.render before).1 ++
          ((console.render before).2.render (event :: after)).1 := by
        simp only [full, order, render_append]
      exact ⟨_, (congrArg (· ++ _) sent).trans whole.symm⟩
    · exact fun small => absurd beyond (Nat.not_lt_of_le small)
    · exact fun _ => ⟨before, event, after, order, fits, long, sent⟩

/-- The output refuses in the middle of the second prompt, so the second value is not sent. -/
theorem refusal_truncates_prompt :
    let input := Text.toBytes "1\n2\n"
    let events : List Event := [.inputRequested, .inputRequested, .output 7]
    let full := (Console.new input .unlimited).render events
    let cut := (Console.new input (.limited 6)).render events
    full.2.output.bytes = Text.toBytes "in> in> 7\n" ∧ full.1 = [1, 2] ∧
      cut.2.outcome = .error .refusedOutput ∧ cut.2.output.bytes = Text.toBytes "in> in" ∧
      cut.1 = [1] := by
  intro input events full cut
  have printed : full.2.output.bytes = Text.toBytes "in> in> 7\n" := by decide +kernel
  have values : full.1 = [1, 2] := by decide +kernel
  have beyond : 6 < full.2.output.bytes.length := by
    rw [printed]
    decide
  obtain ⟨refuses, bytes, -⟩ := refusal_truncates input events 6
  refine ⟨printed, values, refuses.mpr beyond, ?_, ?_⟩
  · calc
      cut.2.output.bytes
          = full.2.output.bytes.take 6 := bytes
      _ = Text.toBytes "in> in" := by
            rw [printed]
            decide
  · decide +kernel

end Console
end Minicomputer
