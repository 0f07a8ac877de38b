import Minicomputer.Proofs.Console.Handling

/-!
# One write at a time

`Console.handle` finds out everything that there is to say about an event and then prints it at
once.  A console that writes each piece by itself reads a line only after it has prompted for it,
complains only after it has read it, and gives up at the first write that is refused, with the lines
behind still unread.  The difference does not show.

* `Output.writes` -- texts written one after the other;
* `Console.ask`, `Console.attend` -- what the console does about an event, write by write;
* `Console.attendAll_resembles` -- it prints, sends and fails like the console that prints at once.
-/

namespace Minicomputer

/-! ## Pieces -/

namespace Output

theorem print_of_room {output : Output} {room : Nat} (h : output.room = some room)
    (bytes : Bytes) :
    output.print bytes =
      (decide (bytes.length ≤ room),
        ⟨output.written ++ bytes.take room, some (room - bytes.length)⟩) := by
  rw [print, h]

/-- Two texts are printed like one, except that the second is not begun after the first has been
refused. -/
theorem print_append (output : Output) (first second : Bytes) :
    output.print (first ++ second) =
      match output.print first with
      | (false, output) => (false, output)
      | (true, output) => output.print second := by
  cases limit : output.room with
  | none =>
    have assoc : output.written ++ (first ++ second) = output.written ++ first ++ second :=
      Array.toList_inj.mp (by simp)
    simp only [print, limit, assoc]
  | some room =>
    rw [print_of_room limit, print_of_room limit]
    by_cases taken : first.length ≤ room
    · -- The second text has the room that the first one leaves.
      have fits : (first ++ second).length ≤ room ↔ second.length ≤ room - first.length := by
        rw [List.length_append]
        omega
      have left : room - (first ++ second).length = room - first.length - second.length := by
        rw [List.length_append, Nat.sub_add_eq]
      have cut : (first ++ second).take room = first ++ second.take (room - first.length) := by
        rw [List.take_append, List.take_of_length_le taken]
      have assoc : output.written ++ (first ++ second.take (room - first.length)) =
          output.written ++ first ++ second.take (room - first.length) :=
        Array.toList_inj.mp (by simp)
      simp only [taken, decide_true, List.take_of_length_le taken, cut, fits, left, assoc]
      rfl
    · have long : ¬ (first ++ second).length ≤ room := by
        rw [List.length_append]
        omega
      have full : room - (first ++ second).length = room - first.length := by
        rw [List.length_append]
        omega
      have cut : (first ++ second).take room = first.take room :=
        List.take_append_of_le_length (Nat.le_of_not_le taken)
      simp only [taken, long, decide_false, full, cut]

/-- Writes texts one after the other, up to the first that is not taken whole. -/
def writes (output : Output) : List String → Bool × Output
  | [] => (true, output)
  | text :: texts =>
    match output.print (Text.toBytes text) with
    | (false, output) => (false, output)
    | (true, output) => output.writes texts

theorem writes_eq_print (output : Output) (texts : List String) :
    output.writes texts = output.print (Text.toBytes (String.join texts)) := by
  induction texts generalizing output with
  | nil =>
    have nothing : Text.toBytes (String.join []) = [] := by decide
    rw [nothing, print_nil, writes]
  | cons text texts ih =>
    rw [String.join_cons, Text.toBytes_append, print_append, writes]
    rcases output.print (Text.toBytes text) with ⟨all, next⟩
    cases all with
    | false => rfl
    | true => exact ih next

end Output

namespace Console

variable {console : Console} {event : Event}

/-! ## Printing at once -/

/-- What a console does after everything that it says about an event has been printed. -/
def react (console : Console) (output : Output) (response : Response) : Option UInt16 × Console :=
  match response.reaction with
  | .nothing => (none, ⟨response.rest, output, console.phase⟩)
  | .reply value => (some value, ⟨response.rest, output, console.phase⟩)
  | .exhausted => (none, ⟨response.rest, output, .printing⟩)
  | .unreadable => (none, ⟨response.rest, output, .failed .unreadableInput⟩)

theorem handle_of_going (going : ¬ console.hasFailed) (event : Event) :
    console.handle event =
      match console.output.print (Text.toBytes (console.respond event).text) with
      | (false, output) => (none, ⟨(console.respond event).rest, output, .failed .refusedOutput⟩)
      | (true, output) => console.react output (console.respond event) := by
  unfold handle react
  exact if_neg going

/-! ## Write by write -/

/-- Asks for a value until a line has one.  There is a prompt before every line, and a complaint
after every line that has no value. -/
def ask (output : Output) (lines : List Bytes) : Option UInt16 × Console :=
  match output.print (Text.toBytes promptText) with
  | (false, output) => (none, ⟨lines, output, .failed .refusedOutput⟩)
  | (true, output) =>
    match lines with
    | [] => (none, ⟨[], output, .printing⟩)
    | line :: rest =>
      match readLine line with
      | none => (none, ⟨rest, output, .failed .unreadableInput⟩)
      | some (some value) => (some value, ⟨rest, output, .answering⟩)
      | some none =>
        match output.print (Text.toBytes complaint) with
        | (false, output) => (none, ⟨rest, output, .failed .refusedOutput⟩)
        | (true, output) => ask output rest

/-- What is written about an event apart from questions, a text for every write. -/
def remarks : Event → List String
  | .output value => [Text.decimal value.toNat ++ "\n"]
  | .snapshot _ | .inputRequested => []
  | .halted state =>
    ["Halted after " ++ Text.decimal state.cycles ++ " cycle(s).\n", registersText state]
  | .faulted fault state => ["Fault: " ++ fault.message ++ "\n", registersText state]

/-- The console after an event, and the value that it sends, if any. -/
def attend (console : Console) (event : Event) : Option UInt16 × Console :=
  if console.hasFailed then (none, console)
  else if event = .inputRequested ∧ console.phase = .answering then
    ask console.output console.lines
  else match console.output.writes (remarks event) with
    | (false, output) => (none, { console with output, phase := .failed .refusedOutput })
    | (true, output) => (none, { console with output })

/-- The console after a list of events, and the values that it sends. -/
def attendAll (console : Console) : List Event → List UInt16 × Console
  | [] => ([], console)
  | event :: events =>
    let (reply, next) := console.attend event
    let (replies, last) := next.attendAll events
    (reply.toList ++ replies, last)

/-! ## The difference does not show -/

/-- Both have printed the same and do the same from now on.  Lines that a console has left unread
when it gave up make no difference. -/
structure Resembles (console other : Console) : Prop where
  output : console.output = other.output
  phase : console.phase = other.phase
  lines : console.hasFailed = true ∨ console.lines = other.lines

theorem Resembles.refl (console : Console) : Resembles console console :=
  ⟨rfl, rfl, .inr rfl⟩

theorem Resembles.outcome_eq {console other : Console} (resembles : Resembles console other) :
    console.outcome = other.outcome := by
  simp only [outcome, resembles.phase]

/-- Questions are asked one by one as they would be asked at once. -/
theorem ask_resembles (output : Output) (lines : List Bytes) :
    (ask output lines).1 = (handle ⟨lines, output, .answering⟩ .inputRequested).1 ∧
      Resembles (ask output lines).2 (handle ⟨lines, output, .answering⟩ .inputRequested).2 := by
  have going (lines : List Bytes) (output : Output) :
      ¬ (⟨lines, output, .answering⟩ : Console).hasFailed := Bool.false_ne_true
  have response (lines : List Bytes) (output : Output) :
      (⟨lines, output, .answering⟩ : Console).respond .inputRequested = prompt lines := rfl
  induction lines generalizing output with
  | nil =>
    rw [handle_of_going (going _ _), response, ask, prompt]
    rcases output.print (Text.toBytes promptText) with ⟨all, next⟩
    cases all with
    | false => exact ⟨rfl, .refl _⟩
    | true => exact ⟨rfl, .refl _⟩
  | cons line rest ih =>
    have later := ih
    simp only [handle_of_going (going _ _), response] at later ⊢
    rw [ask, prompt]
    cases read : readLine line with
    | none =>
      rcases output.print (Text.toBytes promptText) with ⟨all, next⟩
      cases all with
      | false => exact ⟨rfl, rfl, rfl, .inl rfl⟩
      | true =>
        dsimp only
        rw [read]
        exact ⟨rfl, .refl _⟩
    | some word =>
      cases word with
      | some value =>
        rcases output.print (Text.toBytes promptText) with ⟨all, next⟩
        cases all with
        | false => exact ⟨rfl, rfl, rfl, .inl rfl⟩
        | true =>
          dsimp only
          rw [read]
          exact ⟨rfl, .refl _⟩
      | none =>
        -- What is printed at once begins with the prompt and the complaint.
        dsimp only
        rw [Text.toBytes_append, Text.toBytes_append, Output.print_append, Output.print_append]
        rcases output.print (Text.toBytes promptText) with ⟨all, next⟩
        cases all with
        | false => exact ⟨rfl, rfl, rfl, .inl rfl⟩
        | true =>
          dsimp only
          rw [read]
          dsimp only
          rcases next.print (Text.toBytes complaint) with ⟨all', next'⟩
          cases all' with
          | false => exact ⟨rfl, rfl, rfl, .inl rfl⟩
          | true => exact later next'

/-- The texts of the writes are what is said about an event. -/
theorem respond_of_remarks (other : ¬ (event = .inputRequested ∧ console.phase = .answering)) :
    console.respond event = ⟨String.join (remarks event), .nothing, console.lines⟩ := by
  cases event with
  | inputRequested =>
    have deaf : console.phase ≠ .answering := fun answering => other ⟨rfl, answering⟩
    rw [respond_request, if_neg deaf]
    rfl
  | snapshot _ => rfl
  | output _ => simp [respond, remarks, String.join_cons]
  | halted _ => simp [respond, remarks, String.join_cons, String.append_assoc]
  | faulted _ _ => simp [respond, remarks, String.join_cons, String.append_assoc]

theorem attend_resembles_handle (console : Console) (event : Event) :
    (console.attend event).1 = (console.handle event).1 ∧
      Resembles (console.attend event).2 (console.handle event).2 := by
  by_cases failed : console.hasFailed
  · rw [handle_of_hasFailed failed, attend, if_pos failed]
    exact ⟨rfl, .refl _⟩
  · rw [attend, if_neg failed]
    by_cases asked : event = .inputRequested ∧ console.phase = .answering
    · obtain ⟨rfl, answering⟩ := asked
      obtain ⟨lines, output, phase⟩ := console
      obtain rfl : phase = .answering := answering
      rw [if_pos ⟨rfl, rfl⟩]
      exact ask_resembles output lines
    · rw [if_neg asked, handle_of_going failed, respond_of_remarks asked,
        Output.writes_eq_print]
      rcases console.output.print _ with ⟨all, next⟩
      cases all with
      | false => exact ⟨rfl, .refl _⟩
      | true => exact ⟨rfl, .refl _⟩

theorem Resembles.attend {console other : Console} (resembles : Resembles console other)
    (event : Event) :
    (console.attend event).1 = (other.handle event).1 ∧
      Resembles (console.attend event).2 (other.handle event).2 := by
  by_cases failed : console.hasFailed
  · -- Neither does anything any more.
    have failed' : other.hasFailed = true := by
      simpa [hasFailed, resembles.phase] using failed
    rw [handle_of_hasFailed failed', Console.attend, if_pos failed]
    exact ⟨rfl, resembles⟩
  · have same : console = other := by
      obtain ⟨lines, output, phase⟩ := console
      obtain ⟨lines', output', phase'⟩ := other
      obtain rfl : output = output' := resembles.output
      obtain rfl : phase = phase' := resembles.phase
      obtain rfl : lines = lines' := resembles.lines.resolve_left failed
      rfl
    rw [same]
    exact attend_resembles_handle other event

/-- Write by write, the console prints, sends and fails like the one that prints at once. -/
theorem attendAll_resembles {console other : Console} (resembles : Resembles console other)
    (events : List Event) :
    (console.attendAll events).1 = (other.render events).1 ∧
      Resembles (console.attendAll events).2 (other.render events).2 := by
  induction events generalizing console other with
  | nil => exact ⟨rfl, resembles⟩
  | cons event events ih =>
    obtain ⟨reply, next⟩ := resembles.attend event
    obtain ⟨replies, last⟩ := ih next
    refine ⟨?_, last⟩
    calc
      (console.attendAll (event :: events)).1
          = (console.attend event).1.toList ++ ((console.attend event).2.attendAll events).1 := rfl
      _ = (other.handle event).1.toList ++ ((other.handle event).2.render events).1 := by
            rw [reply, replies]
      _ = (other.render (event :: events)).1 := rfl

end Console
end Minicomputer
