import Minicomputer.Proofs.Console.Duet

/-!
# Where a processor and a console are heading

A configuration of the two parties is judged by what becomes of it at once: the console handles all
events that have been published, and then the processor completes its cycle with the console
handling each event as it comes.  Moves do not change the scene to which this leads, except that a
new cycle leads to the next scene.  And as the value that a processor waits for is always among what
the console has sent, or will never come, the two never wait for each other.

* `Duet.Heading` -- the scene to which a configuration leads;
* `Duet.ProcessorMove.heading`, `Duet.ConsoleMove.heading` -- what a move does to it;
* `Duet.finished_of_stuck` -- where nothing can happen any more, both have come to their end.
-/

namespace Minicomputer
namespace Duet

variable {here next : Duet}

/-- The events that have been published and not handled yet. -/
def unhandled (duet : Duet) : List Event :=
  duet.display.pending ++ duet.events.queue.toList

/-- What the console will have become and sent when it has handled all of them. -/
def talk (duet : Duet) : Talk where
  console := (duet.console.render duet.unhandled).2
  replies := duet.input.queue.toList ++ (duet.console.render duet.unhandled).1

/-- What the processor does next leads to that scene, once all events have been handled. -/
def Heading (origin : Cpu) (scene : Scene) (duet : Duet) : Prop :=
  match duet.engine with
  | .busy dialogue => dialogue.After (origin.Shows scene) duet.talk
  | .closing cpu | .closed cpu =>
    scene = ⟨cpu.core, duet.talk.console⟩ ∧ cpu.status.isTerminal = true

theorem heading_busy_iff {origin : Cpu} {scene : Scene} {duet : Duet} {dialogue : Dialogue Cpu}
    (busy : duet.engine = .busy dialogue) :
    duet.Heading origin scene ↔ dialogue.After (origin.Shows scene) duet.talk := by
  unfold Heading
  rw [busy]

theorem heading_of_talk {origin : Cpu} {scene : Scene} {duet : Duet} {dialogue : Dialogue Cpu}
    {talk : Talk} (busy : duet.engine = .busy dialogue) (same : duet.talk = talk)
    (after : dialogue.After (origin.Shows scene) talk) : duet.Heading origin scene := by
  rw [heading_busy_iff busy, same]
  exact after

theorem talk_eq_of_unhandled {duet duet' : Duet} (console : duet'.console = duet.console)
    (unhandled : duet'.unhandled = duet.unhandled)
    (values : duet'.input.queue.toList = duet.input.queue.toList) : duet'.talk = duet.talk := by
  unfold talk
  rw [console, unhandled, values]

/-- One more event is one more to handle. -/
theorem talk_append {duet duet' : Duet} {event : Event} (console : duet'.console = duet.console)
    (unhandled : duet'.unhandled = duet.unhandled ++ [event])
    (values : duet'.input.queue.toList = duet.input.queue.toList) :
    duet'.talk = duet.talk.handle event := by
  unfold talk Talk.handle
  rw [console, unhandled, values, Console.render_append, Console.render_cons]
  simp [Console.render]

theorem talk_of_hasFailed {duet : Duet} (failed : duet.console.hasFailed = true) :
    duet.talk = ⟨duet.console, duet.input.queue.toList⟩ := by
  unfold talk
  rw [Console.render_of_hasFailed failed, List.append_nil]

/-- What is published to a console that has failed makes no difference. -/
theorem talk_eq_of_hasFailed {duet duet' : Duet} (failed : duet.console.hasFailed = true)
    (console : duet'.console = duet.console)
    (values : duet'.input.queue.toList = duet.input.queue.toList) : duet'.talk = duet.talk := by
  have failed' : duet'.console.hasFailed = true := by
    rw [console]
    exact failed
  rw [talk_of_hasFailed failed, talk_of_hasFailed failed', console, values]

variable {origin : Cpu} {scene : Scene}

/-- A move of the processor goes on with the cycle, and then the direction stays the same, or it
begins another one. -/
theorem ProcessorMove.heading (move : ProcessorMove here next) (wired : here.Wired)
    (heading : here.Heading origin scene) :
    here.engine.Onward next.engine ∧ next.Heading origin scene ∨
      ¬ scene.core.status.isTerminal ∧
        next.Heading origin (scene.cycle origin.architecture origin.program) := by
  cases move with
  | note busy =>
    have after := (heading_busy_iff busy).mp heading
    exact .inl ⟨busy ▸ .note, heading_of_talk rfl rfl after⟩
  | @send event following events busy sent =>
    obtain ⟨received, -⟩ := (heading_busy_iff busy).mp heading
    obtain ⟨-, rfl⟩ := Channel.of_accepted sent
    refine .inl ⟨busy ▸ .publish true, heading_of_talk rfl ?_ received⟩
    apply talk_append
    · rfl
    · show here.display.pending ++ (here.events.queue.push event).toList = here.unhandled ++ [event]
      rw [Queue.toList_push, ← List.append_assoc]
      rfl
    · rfl
  | @handOver event following events busy ready bound passed =>
    obtain ⟨received, -⟩ := (heading_busy_iff busy).mp heading
    obtain ⟨empty, -, rfl⟩ := Channel.of_pass passed
    refine .inl ⟨busy ▸ .publish true, heading_of_talk rfl ?_ received⟩
    apply talk_append
    · rfl
    · show [event] ++ [] = here.unhandled ++ [event]
      rw [unhandled, ready, empty]
      rfl
    · rfl
  | refused busy sent =>
    obtain ⟨-, refused⟩ := (heading_busy_iff busy).mp heading
    -- Nobody listens, and as the processor is still there the console must have failed.
    have away : here.display.isWatching = false :=
      Display.not_watching_of_not_listening (wired.listening.symm.trans (Channel.of_refused sent))
    have failed := wired.hasFailed_of_left busy away
    refine .inl ⟨busy ▸ .publish false, heading_of_talk rfl rfl (refused ?_)⟩
    rw [talk_of_hasFailed failed]
    exact failed
  | @receive value following input busy received =>
    have after := (heading_busy_iff busy).mp heading
    obtain ⟨values, -⟩ := Channel.of_message received
    unfold Dialogue.After talk at after
    rw [values] at after
    exact .inl ⟨busy ▸ .receive _, heading_of_talk rfl rfl after⟩
  | @unsupplied following input busy received =>
    have after := (heading_busy_iff busy).mp heading
    obtain ⟨values, ended, rfl⟩ := Channel.of_ended received
    have deaf : here.console.phase ≠ .answering := by
      rcases wired.exhausted ended with deaf | idle
      · exact deaf
      · rw [busy] at idle
        cases idle
    -- So there is nothing on its way, and nothing will be.
    have silent := (Console.render_of_ne_answering deaf here.unhandled).1
    have same : here.talk = ⟨(here.console.render here.unhandled).2, []⟩ := by
      rw [talk, values, silent]
      rfl
    rw [same] at after
    refine .inl ⟨busy ▸ .receive none, heading_of_talk rfl ?_ after.2⟩
    rw [← same]
    exact talk_eq_of_unhandled rfl rfl values.symm
  | cycle busy going =>
    have shown := (heading_busy_iff busy).mp heading
    exact .inr ⟨shown.status_eq ▸ going, heading_of_talk rfl rfl (Cpu.step_after shown)⟩
  | stop busy stopped =>
    have shown := (heading_busy_iff busy).mp heading
    exact .inl ⟨busy ▸ .stop, shown.last_eq.symm, stopped⟩
  | close closing =>
    unfold Heading at heading
    rw [closing] at heading
    exact .inl ⟨closing ▸ .close, heading⟩

/-- A processor that is still there and has closed its end of the values has seen that there are no
more of them, so whatever is sent is received. -/
theorem Wired.receiving_of_reply (wired : here.Wired) (busy : here.engine.isBusy = true)
    {event : Event} (sent : (here.console.handle event).1 ≠ none) :
    here.input.receiving = true := by
  cases listening : here.input.receiving with
  | true => rfl
  | false =>
    rcases wired.heard listening with deaf | idle
    · exact absurd (Console.handle_of_ne_answering deaf event).1 sent
    · rw [busy] at idle
      cases idle

/-- What the console does with an event had been expected of it. -/
theorem talk_respond (wired : here.Wired) {event : Event} {reply : Option UInt16}
    {console : Console} (handling : here.display = .handling event)
    (handled : here.console.handle event = (reply, console)) :
    let next : Duet :=
      { here with display := if console.hasFailed then .leaving else .waiting,
                  console, input := deliver here.input reply console.phase }
    next.talk.console = here.talk.console ∧
      (here.engine.isBusy = true → next.talk = here.talk) := by
  intro next
  have left : here.console.render here.unhandled =
      (reply.toList ++ (console.render here.events.queue.toList).1,
        (console.render here.events.queue.toList).2) := by
    rw [unhandled, handling, Display.pending, List.singleton_append, Console.render_cons, handled]
  have right : next.unhandled = here.events.queue.toList := by
    show (if console.hasFailed = true then Display.leaving else .waiting).pending ++ _ = _
    split
    · rfl
    · rfl
  refine ⟨?_, fun busy => ?_⟩
  · unfold talk
    rw [left, right]
  · have heard : reply ≠ none → here.input.receiving = true := by
      intro sent
      have replied : (here.console.handle event).1 = reply := congrArg Prod.fst handled
      exact wired.receiving_of_reply busy (replied ▸ sent)
    unfold talk
    rw [left, right]
    show Talk.mk _ ((deliver here.input reply console.phase).queue.toList ++ _) = _
    rw [deliver_queue wired.unbounded heard, List.append_assoc]

/-- The console does what had to be done anyway. -/
theorem ConsoleMove.talk_eq (move : ConsoleMove here next) (wired : here.Wired) :
    next.engine = here.engine ∧ next.talk.console = here.talk.console ∧
      (here.engine.isBusy = true → next.talk = here.talk) := by
  cases move with
  | @take event events ready received =>
    obtain ⟨order, -⟩ := Channel.of_message received
    have same : Duet.talk { here with display := .handling event, events } = here.talk := by
      refine talk_eq_of_unhandled rfl ?_ rfl
      show [event] ++ events.queue.toList = here.unhandled
      rw [unhandled, ready, order]
      rfl
    exact ⟨rfl, congrArg Talk.console same, fun _ => same⟩
  | respond handling handled => exact ⟨rfl, talk_respond wired handling handled⟩
  | @finish events ready received =>
    obtain ⟨-, -, rfl⟩ := Channel.of_ended received
    have same : Duet.talk { here with display := .leaving } = here.talk := by
      refine talk_eq_of_unhandled rfl ?_ rfl
      show [] ++ here.events.queue.toList = here.unhandled
      rw [unhandled, ready]
      rfl
    exact ⟨rfl, congrArg Talk.console same, fun _ => same⟩
  | hangUp leaving =>
    have same : Duet.talk
        { here with display := .hungUp, events := here.events.closeReceiver } = here.talk := by
      rcases wired.left (by rw [leaving]; rfl) with failed | ⟨-, empty⟩
      · exact talk_eq_of_hasFailed failed rfl rfl
      · refine talk_eq_of_unhandled rfl ?_ rfl
        show [] = here.unhandled
        rw [unhandled, leaving, empty]
        rfl
    exact ⟨rfl, congrArg Talk.console same, fun _ => same⟩
  | leave hungUp =>
    have same : Duet.talk
        { here with display := .gone, input := here.input.closeSender } = here.talk := by
      refine talk_eq_of_unhandled rfl ?_ rfl
      show [] ++ here.events.queue.toList = here.unhandled
      rw [unhandled, hungUp]
      rfl
    exact ⟨rfl, congrArg Talk.console same, fun _ => same⟩

theorem ConsoleMove.heading (move : ConsoleMove here next) (wired : here.Wired)
    (heading : here.Heading origin scene) : next.Heading origin scene := by
  obtain ⟨same, console, talk⟩ := move.talk_eq wired
  unfold Heading at heading ⊢
  rw [same]
  cases engine : here.engine with
  | busy dialogue =>
    rw [engine] at heading
    rw [talk (by rw [engine]; rfl)]
    exact heading
  | closing cpu =>
    rw [engine] at heading
    rw [console]
    exact heading
  | closed cpu =>
    rw [engine] at heading
    rw [console]
    exact heading

theorem heading_start {cpu : Cpu} {console : Console} (ready : cpu.status = .ready)
    (capacity : Option Nat) :
    (start capacity cpu console).Heading (cpu.attached true true) (cpu.firstScene console) :=
  heading_of_talk rfl rfl (Cpu.start_after ready console)

/-! ## The two do not wait for each other -/

/-- A console that cannot do anything is gone, or it waits for an event and there is none. -/
theorem display_of_stuck (stuck : ∀ next, ¬ ConsoleMove here next) :
    here.display = .gone ∨
      here.display = .waiting ∧ here.events.queue.toList = [] ∧ here.events.sending = true := by
  cases display : here.display with
  | handling event => exact (stuck _ (.respond display rfl)).elim
  | leaving => exact (stuck _ (.hangUp display)).elim
  | hungUp => exact (stuck _ (.leave display)).elim
  | gone => exact .inl rfl
  | waiting =>
    refine .inr ⟨rfl, ?_⟩
    cases popped : here.events.queue.pop? with
    | some pair => exact (stuck _ (.take display (Channel.receive_of_pop popped))).elim
    | none =>
      refine ⟨Queue.pop?_eq_none_iff.mp popped, ?_⟩
      cases sending : here.events.sending with
      | true => rfl
      | false => exact (stuck _ (.finish display (Channel.receive_of_gone popped sending))).elim

/-- If neither can do anything, the processor has stopped, or each waits for the other. -/
theorem idle_or_waiting_of_stuck (wired : here.Wired)
    (display : here.display = .gone ∨ here.display = .waiting ∧ here.events.queue.toList = [])
    (stuck : ∀ next, ¬ ProcessorMove here next) :
    here.engine.isBusy = false ∨
      (∃ following, here.engine = .busy (.receive following)) ∧ here.display = .waiting ∧
        here.events.queue.toList = [] ∧ here.input.queue.toList = [] ∧
        here.input.sending = true := by
  cases engine : here.engine with
  | closing cpu => exact .inl rfl
  | closed cpu => exact .inl rfl
  | busy dialogue =>
    cases dialogue with
    | done cpu =>
      by_cases terminal : cpu.status.isTerminal
      · exact (stuck _ (.stop engine terminal)).elim
      · exact (stuck _ (.cycle engine terminal)).elim
    | note n following => exact (stuck _ (.note engine)).elim
    | publish event following =>
      cases listening : here.events.receiving with
      | false => exact (stuck _ (.refused engine (Channel.send_of_gone listening))).elim
      | true =>
        cases full : here.events.isFull with
        | false => exact (stuck _ (.send engine (Channel.send_of_room listening full))).elim
        | true =>
          -- A channel that is full with nothing in it passes events from hand to hand.
          rcases display with gone | ⟨waiting, empty⟩
          · rw [wired.listening, gone] at listening
            cases listening
          · have bound := Channel.capacity_of_isFull full empty
            exact (stuck _
              (.handOver engine waiting bound (Channel.pass_of_empty listening empty))).elim
    | receive following =>
      cases popped : here.input.queue.pop? with
      | some pair => exact (stuck _ (.receive engine (Channel.receive_of_pop popped))).elim
      | none =>
        cases sending : here.input.sending with
        | false =>
          exact (stuck _ (.unsupplied engine (Channel.receive_of_gone popped sending))).elim
        | true =>
          rcases display with gone | ⟨waiting, empty⟩
          · cases sending.symm.trans (wired.gone gone)
          · exact .inr ⟨⟨following, rfl⟩, waiting, empty, Queue.pop?_eq_none_iff.mp popped, rfl⟩

/-- If nothing can happen any more and the processor has stopped, both have come to their end. -/
theorem finished_of_idle (wired : here.Wired) (stuck : ∀ next, ¬ Move here next)
    (idle : here.engine.isBusy = false) :
    (∃ cpu, here.engine = .closed cpu) ∧ here.display = .gone := by
  refine ⟨?_, ?_⟩
  · cases engine : here.engine with
    | closed cpu => exact ⟨cpu, rfl⟩
    | closing cpu => exact (stuck _ (.processor (.close engine))).elim
    | busy dialogue =>
      rw [engine] at idle
      cases idle
  · rcases display_of_stuck fun next move => stuck next (.console move) with
      gone | ⟨-, -, sending⟩
    · exact gone
    · cases sending.symm.trans (wired.stopped idle)

/-- Where nothing can happen any more, both have come to their end. -/
theorem finished_of_stuck (wired : here.Wired) (heading : here.Heading origin scene)
    (stuck : ∀ next, ¬ Move here next) :
    (∃ cpu, here.engine = .closed cpu) ∧ here.display = .gone := by
  have display := display_of_stuck fun next move => stuck next (.console move)
  rcases idle_or_waiting_of_stuck wired (display.imp_right fun waits => ⟨waits.1, waits.2.1⟩)
      (fun next move => stuck next (.processor move)) with
    idle | ⟨⟨following, engine⟩, waiting, empty, dry, sending⟩
  · exact finished_of_idle wired stuck idle
  · -- Everything has been handled, so the value would be there.
    have after := (heading_busy_iff engine).mp heading
    have handled : here.talk = ⟨here.console, []⟩ := by
      rw [talk, unhandled, waiting, empty, dry]
      rfl
    rw [handled] at after
    exact absurd (wired.supplying (by rw [waiting]; rfl) sending) after.1

end Duet
end Minicomputer
