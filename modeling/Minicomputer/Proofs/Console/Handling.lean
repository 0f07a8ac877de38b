import Minicomputer.Console

/-!
# How a console changes

A console goes from answering to printing to having failed, perhaps leaving something out, and never
back.  It sends a value only as long as it answers, only when it is asked, and then it has either
sent one or stopped answering.
-/

namespace Minicomputer

theorem Output.print_nil (output : Output) : output.print [] = (true, output) := by
  obtain ⟨written, room⟩ := output
  cases room with
  | none => simp [print]
  | some room => simp [print]

namespace Console

variable {console : Console} {event : Event}

theorem hasFailed_iff : console.hasFailed = true ↔ ∃ reason, console.phase = .failed reason := by
  unfold hasFailed
  cases console.phase with
  | answering => simp
  | printing => simp
  | failed reason => simp

theorem phase_ne_answering_of_hasFailed (failed : console.hasFailed = true) :
    console.phase ≠ .answering := by
  obtain ⟨reason, phase⟩ := hasFailed_iff.mp failed
  rw [phase]
  exact nofun

/-- A console that has given up does nothing. -/
theorem handle_of_hasFailed (failed : console.hasFailed = true) (event : Event) :
    console.handle event = (none, console) := by
  rw [handle, if_pos failed]

/-- Where there is nothing to print and nothing else to do, nothing changes. -/
theorem handle_of_silent (silent : console.respond event = ⟨"", .nothing, console.lines⟩) :
    console.handle event = (none, console) := by
  unfold handle
  split
  · rfl
  · rw [silent]
    have bytes : Text.toBytes "" = [] := by decide
    simp only [bytes, Output.print_nil]

theorem handle_snapshot (console : Console) (state : MachineState) :
    console.handle (.snapshot state) = (none, console) :=
  handle_of_silent rfl

theorem respond_request (console : Console) :
    console.respond .inputRequested =
      if console.phase = .answering then prompt console.lines
      else ⟨"", .nothing, console.lines⟩ :=
  rfl

/-- Once a console does not answer any more a request makes no difference. -/
theorem handle_request_of_ne_answering (deaf : console.phase ≠ .answering) :
    console.handle .inputRequested = (none, console) := by
  apply handle_of_silent
  rw [respond_request, if_neg deaf]

/-- Prompting ends with a value, at the end of the input, or at a line that is no text. -/
theorem prompt_reaction_ne_nothing (lines : List Bytes) : (prompt lines).reaction ≠ .nothing := by
  induction lines with
  | nil => exact nofun
  | cons line rest ih =>
    unfold prompt
    split
    · exact nofun
    · exact nofun
    · exact ih

/-- There is something to do besides printing exactly if the console is asked for a value and
answers. -/
theorem respond_reaction_eq_nothing_iff :
    (console.respond event).reaction = .nothing ↔
      ¬ (event = .inputRequested ∧ console.phase = .answering) := by
  cases event with
  | inputRequested =>
    rw [respond_request]
    split
    next answering => simp [prompt_reaction_ne_nothing, answering]
    next deaf => simp [deaf]
  | snapshot _ | output _ | halted _ | faulted _ _ =>
    refine ⟨fun _ asked => ?_, fun _ => rfl⟩
    cases asked.1

/-- What has become of a console after an event: it goes on as before, it has sent a value, or it
does not answer any more. -/
theorem handle_cases (console : Console) (event : Event) :
    (event ≠ .inputRequested ∧ (console.handle event).1 = none ∧
        (console.handle event).2.phase = console.phase) ∨
      (event = .inputRequested ∧ console.phase = .answering ∧
        (∃ value, (console.handle event).1 = some value) ∧
        (console.handle event).2.phase = .answering) ∨
      ((console.handle event).1 = none ∧ (console.handle event).2.phase ≠ .answering) := by
  by_cases failed : console.hasFailed
  · rw [handle_of_hasFailed failed]
    exact .inr (.inr ⟨rfl, phase_ne_answering_of_hasFailed failed⟩)
  · unfold handle
    rw [if_neg failed]
    dsimp only
    split
    · exact .inr (.inr ⟨rfl, nofun⟩)
    · -- Everything has been printed, and the rest is decided by the reaction.
      split
      next reaction =>
        by_cases asked : event = .inputRequested
        · have deaf : console.phase ≠ .answering := fun answering =>
            respond_reaction_eq_nothing_iff.mp reaction ⟨asked, answering⟩
          exact .inr (.inr ⟨rfl, deaf⟩)
        · exact .inl ⟨asked, rfl, rfl⟩
      next value reaction =>
        have asked : event = .inputRequested ∧ console.phase = .answering := by
          apply Classical.byContradiction
          intro other
          rw [respond_reaction_eq_nothing_iff.mpr other] at reaction
          cases reaction
        exact .inr (.inl ⟨asked.1, asked.2, ⟨value, rfl⟩, asked.2⟩)
      next => exact .inr (.inr ⟨rfl, nofun⟩)
      next => exact .inr (.inr ⟨rfl, nofun⟩)

theorem reply_of_ne_request (other : event ≠ .inputRequested) :
    (console.handle event).1 = none := by
  rcases console.handle_cases event with ⟨-, silent, -⟩ | ⟨asked, -⟩ | ⟨silent, -⟩
  · exact silent
  · exact absurd asked other
  · exact silent

/-- A request is answered, or else there will be no more answers. -/
theorem phase_ne_answering_of_no_reply (silent : (console.handle .inputRequested).1 = none) :
    (console.handle .inputRequested).2.phase ≠ .answering := by
  rcases console.handle_cases .inputRequested with ⟨other, -⟩ | ⟨-, -, ⟨value, sent⟩, -⟩ | ⟨-, deaf⟩
  · exact absurd rfl other
  · cases silent.symm.trans sent
  · exact deaf

/-- A console that does not answer any more sends nothing and stays like that. -/
theorem handle_of_ne_answering (deaf : console.phase ≠ .answering) (event : Event) :
    (console.handle event).1 = none ∧ (console.handle event).2.phase ≠ .answering := by
  rcases console.handle_cases event with ⟨-, silent, same⟩ | ⟨-, answering, -⟩ | later
  · exact ⟨silent, same ▸ deaf⟩
  · exact absurd answering deaf
  · exact later

/-- An event other than a request gets no answer, and the console answers later requests as before,
or it has failed. -/
theorem handle_of_ne_request (other : event ≠ .inputRequested) :
    (console.handle event).1 = none ∧
      ((console.handle event).2.phase = console.phase ∨
        (console.handle event).2.hasFailed = true) := by
  by_cases failed : console.hasFailed
  · rw [handle_of_hasFailed failed]
    exact ⟨rfl, .inl rfl⟩
  · have silent : (console.respond event).reaction = .nothing :=
      respond_reaction_eq_nothing_iff.mpr fun asked => other asked.1
    unfold handle
    rw [if_neg failed]
    dsimp only
    split
    · exact ⟨rfl, .inr rfl⟩
    · rw [silent]
      exact ⟨rfl, .inl rfl⟩

/-! ## The values that are typed -/

/-- The values on the lines of the input, up to a line that is no text. -/
def typed : List Bytes → List UInt16
  | [] => []
  | line :: rest =>
    match readLine line with
    | none => []
    | some (some value) => value :: typed rest
    | some none => typed rest

theorem typed_cons (line : Bytes) (rest : List Bytes) :
    typed (line :: rest) =
      match readLine line with
      | none => []
      | some (some value) => value :: typed rest
      | some none => typed rest :=
  rfl

/-- An answer is the next value that is typed. -/
theorem typed_of_reply {lines : List Bytes} {value : UInt16}
    (reply : (prompt lines).reaction = .reply value) :
    typed lines = value :: typed (prompt lines).rest := by
  induction lines with
  | nil => cases reply
  | cons line rest ih =>
    cases found : readLine line with
    | none =>
      rw [prompt, found] at reply
      cases reply
    | some word =>
      cases word with
      | some first =>
        rw [prompt, found] at reply
        rw [typed_cons, prompt, found]
        cases reply
        rfl
      | none =>
        rw [prompt, found] at reply
        rw [typed_cons, prompt, found]
        exact ih reply

theorem rest_of_ne_request (other : event ≠ .inputRequested) :
    (console.respond event).rest = console.lines := by
  cases event with
  | inputRequested => exact absurd rfl other
  | snapshot _ | output _ | halted _ | faulted _ _ => rfl

/-- What a console that still answers has done. -/
theorem handle_of_answering (answering : (console.handle event).2.phase = .answering) :
    (console.handle event).2.lines = (console.respond event).rest ∧
      ((console.respond event).reaction = .nothing ∧ (console.handle event).1 = none ∨
        ∃ value, (console.respond event).reaction = .reply value ∧
          (console.handle event).1 = some value) := by
  revert answering
  unfold handle
  split
  next failed => exact fun answering => absurd answering (phase_ne_answering_of_hasFailed failed)
  next =>
    dsimp only
    split
    next => exact nofun
    next =>
      split
      next reaction => exact fun _ => ⟨rfl, .inl ⟨reaction, rfl⟩⟩
      next value reaction => exact fun _ => ⟨rfl, .inr ⟨value, reaction, rfl⟩⟩
      next => exact nofun
      next => exact nofun

/-- A console that still answers has passed over no value. -/
theorem typed_handle (answering : (console.handle event).2.phase = .answering) :
    typed console.lines =
      (console.handle event).1.toList ++ typed (console.handle event).2.lines := by
  have before : console.phase = .answering :=
    Decidable.byContradiction fun deaf => (handle_of_ne_answering deaf event).2 answering
  obtain ⟨lines, ⟨silent, reply⟩ | ⟨value, reaction, reply⟩⟩ := handle_of_answering answering
  · have other : event ≠ .inputRequested := fun asked =>
      respond_reaction_eq_nothing_iff.mp silent ⟨asked, before⟩
    rw [lines, reply, rest_of_ne_request other]
    rfl
  · have asked : event = .inputRequested := by
      apply Decidable.byContradiction
      intro other
      cases (handle_of_ne_request other).1.symm.trans reply
    rw [lines, reply, asked, respond_request, if_pos before]
    rw [asked, respond_request, if_pos before] at reaction
    exact typed_of_reply reaction

/-! ## Lists of events -/

theorem render_cons (console : Console) (event : Event) (events : List Event) :
    console.render (event :: events) =
      ((console.handle event).1.toList ++ ((console.handle event).2.render events).1,
        ((console.handle event).2.render events).2) :=
  rfl

theorem render_append (console : Console) (events events' : List Event) :
    console.render (events ++ events') =
      ((console.render events).1 ++ ((console.render events).2.render events').1,
        ((console.render events).2.render events').2) := by
  induction events generalizing console with
  | nil => rfl
  | cons event events ih =>
    rw [List.cons_append, render_cons, render_cons, ih]
    dsimp only
    rw [List.append_assoc]

theorem render_of_hasFailed (failed : console.hasFailed = true) (events : List Event) :
    console.render events = ([], console) := by
  induction events with
  | nil => rfl
  | cons event events ih =>
    rw [render_cons, handle_of_hasFailed failed]
    dsimp only
    rw [ih]
    rfl

theorem render_of_ne_answering (deaf : console.phase ≠ .answering) (events : List Event) :
    (console.render events).1 = [] ∧ (console.render events).2.phase ≠ .answering := by
  induction events generalizing console with
  | nil => exact ⟨rfl, deaf⟩
  | cons event events ih =>
    obtain ⟨silent, deaf'⟩ := handle_of_ne_answering deaf event
    obtain ⟨rest, last⟩ := ih deaf'
    rw [render_cons, silent, rest]
    exact ⟨rfl, last⟩

end Console
end Minicomputer
