import Minicomputer.Proofs.Console.Heading
import Minicomputer.Proofs.Machine.Protocol

/-!
# How far an exchange has got

A processor asks for a value through one channel and gets it through another.  At most one request
is open: it is on its way to the console, or its answer is on its way back, or there will be no
answer and the processor will notice.

* `Duet.requesting`, `Duet.taking`, `Duet.replying` -- what a move does to an exchange;
* `Duet.Stage`, `Duet.Turn` -- the stages, and that the processor acts accordingly;
* `Duet.ProcessorMove.turn`, `Duet.ConsoleMove.turn` -- how a move leads from one stage to another.

The console may also give up of itself, as it does when it cannot print or cannot read
(`Duet.abandon`).
-/

namespace Minicomputer

theorem Event.isRequest_iff {event : Event} : event.isRequest = true ↔ event = .inputRequested := by
  cases event with
  | inputRequested => exact ⟨fun _ => rfl, fun _ => rfl⟩
  | snapshot _ | output _ | halted _ | faulted _ _ => exact ⟨nofun, nofun⟩

namespace Duet

/-! ## What moves do -/

/-- How many requests get through with the next move of the processor. -/
def requesting (duet : Duet) : Nat :=
  match duet.engine with
  | .busy (.publish event _) =>
    if event.isRequest = true ∧ duet.events.receiving = true then 1 else 0
  | _ => 0

/-- What the processor receives with its next move. -/
def taking (duet : Duet) : List UInt16 :=
  match duet.engine with
  | .busy (.receive _) =>
    match duet.input.receive with
    | (.message value, _) => [value]
    | _ => []
  | _ => []

/-- What the console sends with its next move. -/
def replying (duet : Duet) : List UInt16 :=
  match duet.display with
  | .handling event => (duet.console.handle event).1.toList
  | _ => []

theorem replying_of_handling {duet : Duet} {event : Event} {reply : Option UInt16}
    {console : Console} (handling : duet.display = .handling event)
    (handled : duet.console.handle event = (reply, console)) : duet.replying = reply.toList := by
  rw [replying, handling]
  exact congrArg (fun handled => handled.1.toList) handled

/-- The console has handled an event. -/
def respond (duet : Duet) (reply : Option UInt16) (console : Console) : Duet :=
  { duet with
    display := if console.hasFailed then .leaving else .waiting
    console
    input := deliver duet.input reply console.phase }

/-- The console gives up: it will do nothing about the event that it is handling, if it is. -/
def abandon (duet : Duet) (reason : ConsoleFailure) : Duet :=
  { duet with
    display := .leaving
    console := { duet.console with phase := .failed reason } }

/-! ## Stages of an exchange -/

/-- How many requests have been received by the channel and not handled yet. -/
def openRequests (duet : Duet) : Nat :=
  duet.unhandled.countP Event.isRequest

/-- How far the exchange has got that the processor has begun, if it has begun one.  `asked` and
`supplied` are the processor's view of it. -/
inductive Stage (requests sent : Nat) (duet : Duet) (asked supplied : Bool) : Prop
  /-- The processor does not wait for an answer.  If the last request had none it makes no other. -/
  | settled (unasked : asked = false) (quiet : duet.openRequests = 0)
      (empty : duet.input.queue.toList = [])
      (even : requests = sent ∨ supplied = false ∧ requests = sent + 1)
      (ready : supplied = true → duet.input.sending = true ∨ duet.display = .gone)
  /-- The request is on its way, or the console is handling it. -/
  | pending (isAsked : asked = true) (one : duet.openRequests = 1)
      (empty : duet.input.queue.toList = []) (ahead : requests = sent + 1)
      (sending : duet.input.sending = true) (listening : duet.display.isListening = true)
  /-- The answer is on its way. -/
  | answered {value : UInt16} (isAsked : asked = true) (quiet : duet.openRequests = 0)
      (reply : duet.input.queue.toList = [value]) (even : requests = sent)
      (ready : duet.input.sending = true ∨ duet.display = .gone)
  /-- The request has been lost, or the console has no value for it. -/
  | hopeless (isAsked : asked = true) (quiet : duet.openRequests = 0)
      (empty : duet.input.queue.toList = []) (ahead : requests = sent + 1)
      (closing : duet.input.sending = false ∨ duet.display.isWatching = false)

/-- The processor goes on as its part of the exchange demands. -/
def Turn (requests sent : Nat) (duet : Duet) : Prop :=
  match duet.engine with
  | .busy dialogue =>
    ∃ standing, dialogue.Orderly (fun rest => Cpu.Awaits (.receive rest)) Cpu.Settled standing ∧
      (standing.observed = false → duet.events.receiving = false) ∧
        Stage requests sent duet standing.asked standing.supplied
  | .closing _ | .closed _ => ∃ supplied, Stage requests sent duet false supplied

variable {here next : Duet} {requests sent : Nat} {asked supplied : Bool}

theorem Stage.openRequests_le_one (stage : Stage requests sent here asked supplied) :
    here.openRequests ≤ 1 := by
  cases stage with
  | settled _ quiet => exact quiet ▸ Nat.zero_le 1
  | pending _ one => exact Nat.le_of_eq one
  | answered _ quiet => exact quiet ▸ Nat.zero_le 1
  | hopeless _ quiet => exact quiet ▸ Nat.zero_le 1

theorem Stage.empty_of_unasked (stage : Stage requests sent here false supplied) :
    here.input.queue.toList = [] := by
  cases stage with
  | settled _ _ empty => exact empty
  | pending isAsked => cases isAsked
  | answered isAsked => cases isAsked
  | hopeless isAsked => cases isAsked

/-- As long as a request has not been handled its answer can still be sent. -/
theorem Stage.of_open (stage : Stage requests sent here asked supplied)
    (opened : here.openRequests ≠ 0) :
    asked = true ∧ here.input.queue.toList = [] ∧ requests = sent + 1 ∧
      here.input.sending = true := by
  cases stage with
  | settled _ quiet => exact absurd quiet opened
  | answered _ quiet => exact absurd quiet opened
  | hopeless _ quiet => exact absurd quiet opened
  | pending isAsked _ empty ahead sending => exact ⟨isAsked, empty, ahead, sending⟩

/-- What the processor does for itself leaves the exchange as it is. -/
theorem Stage.of_same (stage : Stage requests sent here asked supplied)
    (unhandled : next.unhandled = here.unhandled) (input : next.input = here.input)
    (display : next.display = here.display) : Stage requests sent next asked supplied := by
  have same : next.openRequests = here.openRequests :=
    congrArg (List.countP Event.isRequest) unhandled
  cases stage with
  | settled unasked quiet empty even ready =>
    rw [← same] at quiet
    rw [← input] at empty ready
    rw [← display] at ready
    exact .settled unasked quiet empty even ready
  | pending asked one empty ahead sending listening =>
    rw [← same] at one
    rw [← input] at empty sending
    rw [← display] at listening
    exact .pending asked one empty ahead sending listening
  | answered asked quiet reply even ready =>
    rw [← same] at quiet
    rw [← input] at reply ready
    rw [← display] at ready
    exact .answered asked quiet reply even ready
  | hopeless asked quiet empty ahead closing =>
    rw [← same] at quiet
    rw [← input] at empty closing
    rw [← display] at closing
    exact .hopeless asked quiet empty ahead closing

/-- An event that gets through is one more to handle, and it may begin an exchange. -/
theorem Stage.published (stage : Stage requests sent here asked supplied) {event : Event}
    (unasked : asked = false) (supplies : event.isRequest = true → supplied = true)
    (unhandled : next.unhandled = here.unhandled ++ [event]) (input : next.input = here.input)
    (listening : here.display.isListening = true) (listening' : next.display.isListening = true) :
    Stage (requests + if event.isRequest = true then 1 else 0) sent next event.isRequest
      supplied := by
  cases stage with
  | pending asked => cases unasked.symm.trans asked
  | answered asked => cases unasked.symm.trans asked
  | hopeless asked => cases unasked.symm.trans asked
  | settled _ quiet empty even ready =>
    have opened : next.openRequests = if event.isRequest = true then 1 else 0 := by
      rw [openRequests, unhandled, List.countP_append, List.countP_singleton]
      show here.openRequests + _ = _
      rw [quiet, Nat.zero_add]
    have sending : supplied = true → next.input.sending = true := by
      intro isSupplied
      rw [input]
      rcases ready isSupplied with sending | gone
      · exact sending
      · rw [gone] at listening
        cases listening
    rw [← input] at empty
    cases asks : event.isRequest with
    | false =>
      rw [asks] at opened
      exact .settled rfl opened empty even fun isSupplied => .inl (sending isSupplied)
    | true =>
      rw [asks] at opened
      have isSupplied := supplies asks
      have even : requests = sent := by
        rcases even with even | ⟨unsupplied, -⟩
        · exact even
        · cases isSupplied.symm.trans unsupplied
      exact .pending rfl opened empty (congrArg (· + 1) even) (sending isSupplied) listening'

theorem requesting_of_publish {event : Event} {following : Bool → Dialogue Cpu}
    (busy : here.engine = .busy (.publish event following))
    (listening : here.events.receiving = true) :
    here.requesting = if event.isRequest = true then 1 else 0 := by
  rw [requesting, busy]
  simp only [listening, and_true]

/-- When the value has been received the exchange is over. -/
theorem Stage.received (stage : Stage requests sent here asked supplied) {value : UInt16}
    {values : List UInt16} (order : here.input.queue.toList = value :: values)
    {input : Channel UInt16} (same : input = { here.input with queue := input.queue })
    (rest : input.queue.toList = values) (engine : Engine) :
    Stage requests sent { here with engine, input } false supplied := by
  cases stage with
  | settled _ _ empty => cases empty.symm.trans order
  | pending _ _ empty => cases empty.symm.trans order
  | hopeless _ _ empty => cases empty.symm.trans order
  | answered _ quiet reply even ready =>
    cases reply.symm.trans order
    refine .settled rfl quiet rest (.inl even) fun _ => ?_
    rw [same]
    exact ready

/-- It is also over when the processor notices that there will be no value. -/
theorem Stage.unsupplied (stage : Stage requests sent here asked supplied)
    (empty : here.input.queue.toList = []) (ended : here.input.sending = false)
    (engine : Engine) :
    Stage requests sent { here with engine, input := here.input.closeReceiver } false false := by
  cases stage with
  | settled _ quiet _ even =>
    exact .settled rfl quiet rfl (even.imp_right fun ahead => ⟨rfl, ahead.2⟩) nofun
  | pending _ _ _ _ sending => cases sending.symm.trans ended
  | answered _ _ reply => cases empty.symm.trans reply
  | hopeless _ quiet _ ahead => exact .settled rfl quiet rfl (.inr ⟨rfl, ahead⟩) nofun

theorem ProcessorMove.turn (move : ProcessorMove here next) (wired : here.Wired)
    (turn : Turn requests sent here) : Turn (requests + here.requesting) sent next := by
  have listens : here.events.receiving = true → here.display.isListening = true :=
    fun listening => wired.listening.symm.trans listening
  obtain ⟨engine, display, console, events, input⟩ := here
  -- What the processor may do at its standing says which stages each move can meet.
  cases move with
  | note busy =>
    cases busy
    obtain ⟨standing, ⟨-, orderly⟩, unheard, stage⟩ := turn
    exact ⟨standing, orderly, unheard, stage.of_same rfl rfl rfl⟩
  | @send event _ _ busy accepted =>
    cases busy
    obtain ⟨standing, ⟨⟨unasked, -, supplies⟩, orderly, -⟩, unheard, stage⟩ := turn
    obtain ⟨listening, rfl⟩ := Channel.of_accepted accepted
    rw [requesting_of_publish rfl listening]
    refine ⟨_, orderly, unheard, ?_⟩
    refine stage.published unasked supplies ?_ rfl (listens listening) (listens listening)
    show display.pending ++ (events.queue.push event).toList = _
    rw [Queue.toList_push, ← List.append_assoc]
    rfl
  | @handOver event _ _ busy ready bound passed =>
    cases busy
    cases ready
    obtain ⟨standing, ⟨⟨unasked, -, supplies⟩, orderly, -⟩, unheard, stage⟩ := turn
    obtain ⟨empty, listening, rfl⟩ := Channel.of_pass passed
    rw [requesting_of_publish rfl listening]
    refine ⟨_, orderly, unheard, ?_⟩
    refine stage.published unasked supplies ?_ rfl rfl rfl
    show [event] ++ [] = [] ++ events.queue.toList ++ [event]
    rw [empty]
    rfl
  | @refused event following busy refused =>
    cases busy
    obtain ⟨standing, ⟨-, -, orderly⟩, -, stage⟩ := turn
    have unheard := Channel.of_refused refused
    have lost :
        requesting ⟨.busy (.publish event following), display, console, events, input⟩ = 0 :=
      if_neg fun both => Bool.false_ne_true (unheard.symm.trans both.2)
    rw [lost]
    exact ⟨_, orderly, fun _ => unheard, stage.of_same rfl rfl rfl⟩
  | receive busy received =>
    cases busy
    obtain ⟨standing, ⟨-, orderly, -⟩, unheard, stage⟩ := turn
    obtain ⟨order, same⟩ := Channel.of_message received
    exact ⟨_, orderly _, unheard, stage.received order same rfl _⟩
  | unsupplied busy received =>
    cases busy
    obtain ⟨standing, ⟨-, -, orderly⟩, unheard, stage⟩ := turn
    obtain ⟨empty, ended, rfl⟩ := Channel.of_ended received
    exact ⟨_, orderly, unheard, stage.unsupplied empty ended _⟩
  | cycle busy going =>
    cases busy
    obtain ⟨standing, rfl, unheard, stage⟩ := turn
    exact ⟨_, Cpu.step_orderly _, unheard, stage.of_same rfl rfl rfl⟩
  | stop busy stopped =>
    cases busy
    obtain ⟨standing, rfl, unheard, stage⟩ := turn
    exact ⟨_, stage.of_same rfl rfl rfl⟩
  | close closing =>
    cases closing
    obtain ⟨supplied, stage⟩ := turn
    refine ⟨supplied, ?_⟩
    cases stage with
    | settled _ quiet empty even ready => exact .settled rfl quiet rfl even ready
    | pending asked => cases asked
    | answered asked => cases asked
    | hopeless asked => cases asked

/-! ## Moves of the console -/

/-- What the console may do to an exchange when it does not send a value. -/
structure Withholds (here next : Duet) : Prop where
  queue : next.input.queue.toList = here.input.queue.toList
  /-- A request that is handled or lost will not be answered. -/
  handled : next.openRequests = here.openRequests ∨
    next.openRequests = 0 ∧ (next.input.sending = false ∨ next.display.isWatching = false)
  /-- The console lets go of its end of the values about a request, or when it goes. -/
  ready : here.openRequests = 0 → here.input.sending = true ∨ here.display = .gone →
    next.input.sending = true ∨ next.display = .gone
  waiting : next.openRequests ≠ 0 → here.input.sending = true →
    here.display.isListening = true →
      next.input.sending = true ∧ next.display.isListening = true
  closing : here.openRequests = 0 →
    here.input.sending = false ∨ here.display.isWatching = false →
      next.input.sending = false ∨ next.display.isWatching = false

theorem Stage.withheld (stage : Stage requests sent here asked supplied)
    (withholds : Withholds here next) : Stage requests sent next asked supplied := by
  have queue := withholds.queue
  have quiet' (quiet : here.openRequests = 0) : next.openRequests = 0 := by
    rcases withholds.handled with same | ⟨handled, -⟩
    · exact same.trans quiet
    · exact handled
  cases stage with
  | settled unasked quiet empty even ready =>
    exact .settled unasked (quiet' quiet) (queue.trans empty) even fun isSupplied =>
      withholds.ready quiet (ready isSupplied)
  | answered isAsked quiet reply even ready =>
    exact .answered isAsked (quiet' quiet) (queue.trans reply) even (withholds.ready quiet ready)
  | hopeless isAsked quiet empty ahead closing =>
    exact .hopeless isAsked (quiet' quiet) (queue.trans empty) ahead
      (withholds.closing quiet closing)
  | pending isAsked one empty ahead sending listening =>
    rcases withholds.handled with same | ⟨handled, closing⟩
    · have one' := same.trans one
      obtain ⟨sending', listening'⟩ :=
        withholds.waiting (by rw [one']; exact Nat.one_ne_zero) sending listening
      exact .pending isAsked one' (queue.trans empty) ahead sending' listening'
    · exact .hopeless isAsked handled (queue.trans empty) ahead closing

theorem openRequests_of_handling {event : Event} (handling : here.display = .handling event) :
    here.openRequests =
      here.events.queue.toList.countP Event.isRequest +
        if event.isRequest = true then 1 else 0 := by
  rw [openRequests, unhandled, handling]
  exact List.countP_cons

/-- Once it has been handled it does not count any more. -/
theorem openRequests_respond (duet : Duet) (reply : Option UInt16) (console : Console) :
    (duet.respond reply console).openRequests =
      duet.events.queue.toList.countP Event.isRequest := by
  rw [openRequests, unhandled, respond]
  dsimp only
  split
  · rfl
  · rfl

theorem wired_abandon (wired : here.Wired) (watching : here.display.isWatching = true)
    (reason : ConsoleFailure) : (here.abandon reason).Wired := by
  have listening : here.display.isListening = true := by
    cases display : here.display with
    | waiting | handling _ | leaving => rfl
    | hungUp | gone =>
      rw [display] at watching
      cases watching
  exact
    { wired with
      listening := wired.listening.trans listening
      sending := fun ended => .inl
        ((wired.sending ended).resolve_right fun away =>
          Bool.false_ne_true (away.symm.trans listening))
      left := fun _ => .inl rfl
      supplying := nofun
      exhausted := fun _ => .inl nofun
      gone := nofun
      heard := fun _ => .inl nofun }

/-- Giving up loses whatever is being handled. -/
theorem withholds_abandon (few : here.openRequests ≤ 1)
    (watching : here.display.isWatching = true) (reason : ConsoleFailure) :
    Withholds here (here.abandon reason) where
  queue := rfl
  handled := by
    cases display : here.display with
    | waiting =>
      left
      rw [openRequests, openRequests, unhandled, unhandled, display]
      rfl
    | handling event =>
      have counted := openRequests_of_handling display
      have left : (here.abandon reason).openRequests =
          here.events.queue.toList.countP Event.isRequest := rfl
      rw [left]
      split at counted
      · exact .inr ⟨by omega, .inr rfl⟩
      · exact .inl counted.symm
    | leaving | hungUp | gone =>
      rw [display] at watching
      cases watching
  ready _ ready := by
    rcases ready with sending | gone
    · exact .inl sending
    · rw [gone] at watching
      cases watching
  waiting _ sending _ := ⟨sending, rfl⟩
  closing _ _ := .inr rfl

/-- Receiving something, or the end of the stream, loses nothing. -/
theorem withholds_of_waiting (ready : here.display = .waiting)
    (unhandled : next.unhandled = here.unhandled) (input : next.input = here.input)
    (listening : next.display.isListening = true) : Withholds here next where
  queue := by rw [input]
  handled := .inl (congrArg (List.countP Event.isRequest) unhandled)
  ready _ := by
    rw [input, ready]
    rintro (sending | gone)
    · exact .inl sending
    · cases gone
  waiting _ sending _ := ⟨input ▸ sending, listening⟩
  closing _ := by
    rw [input, ready]
    rintro (closed | away)
    · exact .inl closed
    · cases away

/-- A console that has no value for a request lets go of its end of the values, or it goes. -/
theorem closing_of_no_reply {event : Event} {console : Console} {input : Channel UInt16}
    (asks : event = .inputRequested) (handled : here.console.handle event = (none, console)) :
    (deliver input none console.phase).sending = false ∨
      (if console.hasFailed then Display.leaving else .waiting).isWatching = false := by
  subst asks
  have deaf := Console.phase_ne_answering_of_no_reply (congrArg Prod.fst handled)
  rw [handled] at deaf
  cases phase : console.phase with
  | answering => exact absurd phase deaf
  | printing => exact .inl rfl
  | failed reason =>
    have failed : console.hasFailed = true := Console.hasFailed_iff.mpr ⟨reason, phase⟩
    rw [if_pos failed]
    exact .inr rfl

/-- About any other event it keeps its end of the values. -/
theorem deliver_of_ne_request (wired : here.Wired) {event : Event} {console : Console}
    (handling : here.display = .handling event) (other : event ≠ .inputRequested)
    (handled : here.console.handle event = (none, console)) (sending : here.input.sending = true) :
    deliver here.input none console.phase = here.input := by
  have answering := wired.supplying (by rw [handling]; rfl) sending
  have going := (@Console.handle_of_ne_request here.console event other).2
  rw [handled] at going
  apply deliver_none_of_ne_printing
  rcases going with same | failed
  · rw [same, answering]
    exact nofun
  · obtain ⟨reason, phase⟩ := Console.hasFailed_iff.mp failed
    rw [phase]
    exact nofun

theorem withholds_respond (wired : here.Wired) (few : here.openRequests ≤ 1) {event : Event}
    {console : Console} (handling : here.display = .handling event)
    (handled : here.console.handle event = (none, console)) :
    Withholds here (here.respond none console) := by
  have counted := openRequests_of_handling handling
  have left := openRequests_respond here none console
  have queue : (deliver here.input none console.phase).queue.toList = here.input.queue.toList := by
    rw [deliver_queue wired.unbounded nofun, Option.toList_none, List.append_nil]
  by_cases asks : event.isRequest = true
  · rw [if_pos asks] at counted
    have opened : here.openRequests ≠ 0 := by omega
    have quiet' : (here.respond none console).openRequests = 0 := left.trans (by omega)
    exact
      { queue := queue
        handled := .inr ⟨quiet', closing_of_no_reply (Event.isRequest_iff.mp asks) handled⟩
        ready := fun quiet => absurd quiet opened
        waiting := fun opened' => absurd quiet' opened'
        closing := fun quiet => absurd quiet opened }
  · rw [if_neg asks, Nat.add_zero] at counted
    have kept := deliver_of_ne_request wired handling (mt Event.isRequest_iff.mpr asks) handled
    refine
      { queue := queue
        handled := .inl (left.trans counted.symm)
        ready := ?_
        waiting := fun _ sending _ => ⟨(congrArg Channel.sending (kept sending)).trans sending, ?_⟩
        closing := ?_ }
    · rintro - (sending | gone)
      · exact .inl ((congrArg Channel.sending (kept sending)).trans sending)
      · cases gone.symm.trans handling
    · show (if console.hasFailed then Display.leaving else .waiting).isListening = true
      split
      · rfl
      · rfl
    · rintro - (closed | away)
      · left
        show (deliver here.input none console.phase).sending = false
        rw [deliver_sending wired.unbounded, closed]
        exact ite_self false
      · rw [handling] at away
        cases away

theorem ConsoleMove.withholds (move : ConsoleMove here next) (wired : here.Wired)
    (few : here.openRequests ≤ 1) (silent : here.replying = []) : Withholds here next := by
  cases move with
  | @take event events ready received =>
    obtain ⟨order, -⟩ := Channel.of_message received
    refine withholds_of_waiting ready ?_ rfl rfl
    show [event] ++ events.queue.toList = here.unhandled
    rw [unhandled, ready, order]
    rfl
  | @respond event reply console handling handled =>
    rw [replying_of_handling handling handled] at silent
    obtain rfl := Option.toList_eq_nil_iff.mp silent
    exact withholds_respond wired few handling handled
  | finish ready received =>
    obtain ⟨-, -, rfl⟩ := Channel.of_ended received
    refine withholds_of_waiting ready ?_ rfl rfl
    show [] ++ here.events.queue.toList = here.unhandled
    rw [unhandled, ready]
    rfl
  | hangUp leaving =>
    have present : here.display ≠ .gone := by
      rw [leaving]
      decide
    exact
      { queue := rfl
        handled := .inr ⟨rfl, .inr rfl⟩
        ready := fun _ ready => .inl (ready.resolve_right present)
        waiting := fun opened => absurd rfl opened
        closing := fun _ _ => .inr rfl }
  | leave hungUp =>
    refine
      { queue := rfl
        handled := .inl ?_
        ready := fun _ _ => .inr rfl
        waiting := fun _ _ listening => ?_
        closing := fun _ _ => .inr rfl }
    · show ([] ++ here.events.queue.toList).countP Event.isRequest = _
      rw [openRequests, unhandled, hungUp]
      rfl
    · rw [hungUp] at listening
      cases listening

/-- Only a request is answered. -/
theorem openRequests_of_reply {event : Event} {value : UInt16} {console : Console}
    (handling : here.display = .handling event)
    (handled : here.console.handle event = (some value, console)) :
    here.openRequests = here.events.queue.toList.countP Event.isRequest + 1 := by
  have asks : event.isRequest = true := by
    apply Event.isRequest_iff.mpr
    apply Decidable.byContradiction
    intro other
    cases (congrArg Prod.fst handled).symm.trans (Console.reply_of_ne_request other)
  rw [openRequests_of_handling handling, if_pos asks]

/-- When a request has been answered the value is on its way. -/
theorem Stage.replied (stage : Stage requests sent here asked supplied) (wired : here.Wired)
    (heard : here.input.receiving = true) {event : Event} {value : UInt16} {console : Console}
    (handling : here.display = .handling event)
    (handled : here.console.handle event = (some value, console)) :
    Stage requests (sent + 1) (here.respond (some value) console) asked supplied := by
  have counted := openRequests_of_reply handling handled
  have few := stage.openRequests_le_one
  have quiet : here.events.queue.toList.countP Event.isRequest = 0 := by omega
  obtain ⟨isAsked, empty, ahead, sending⟩ := stage.of_open (by omega)
  have reply : (deliver here.input (some value) console.phase).queue.toList = [value] := by
    rw [deliver_queue wired.unbounded fun _ => heard, empty]
    rfl
  have sending' : (deliver here.input (some value) console.phase).sending = true := by
    rw [deliver_sending wired.unbounded, if_neg (fun both => nomatch both.1)]
    exact sending
  exact .answered isAsked ((openRequests_respond _ _ _).trans quiet) reply ahead (.inl sending')

theorem Turn.exists_stage (turn : Turn requests sent here) :
    ∃ asked supplied, (asked = true → here.engine.isBusy = true) ∧
      Stage requests sent here asked supplied := by
  unfold Turn at turn
  cases busy : here.engine with
  | busy dialogue =>
    rw [busy] at turn
    obtain ⟨standing, -, -, stage⟩ := turn
    exact ⟨_, _, fun _ => rfl, stage⟩
  | closing cpu | closed cpu =>
    rw [busy] at turn
    obtain ⟨supplied, stage⟩ := turn
    exact ⟨false, supplied, nofun, stage⟩

theorem Turn.openRequests_le_one (turn : Turn requests sent here) : here.openRequests ≤ 1 := by
  obtain ⟨asked, supplied, -, stage⟩ := turn.exists_stage
  exact stage.openRequests_le_one

/-- The processor is there as long as a request is open, so it receives the answer. -/
theorem Turn.receiving_of_reply (turn : Turn requests sent here) (wired : here.Wired)
    {event : Event} {value : UInt16} {console : Console}
    (handling : here.display = .handling event)
    (handled : here.console.handle event = (some value, console)) :
    here.input.receiving = true := by
  have opened : here.openRequests ≠ 0 := by
    rw [openRequests_of_reply handling handled]
    exact Nat.succ_ne_zero _
  obtain ⟨asked, supplied, busy, stage⟩ := turn.exists_stage
  have replied : (here.console.handle event).1 ≠ none := by
    rw [handled]
    exact nofun
  exact wired.receiving_of_reply (busy (stage.of_open opened).1) replied

/-- A move of the console leaves the processor where it is. -/
theorem Turn.onward {sent' : Nat} (turn : Turn requests sent here)
    (engine : next.engine = here.engine)
    (unheard : here.events.receiving = false → next.events.receiving = false)
    (stage : ∀ asked supplied, Stage requests sent here asked supplied →
      Stage requests sent' next asked supplied) :
    Turn requests sent' next := by
  unfold Turn at turn ⊢
  rw [engine]
  cases busy : here.engine with
  | busy dialogue =>
    rw [busy] at turn
    obtain ⟨standing, orderly, unheard', stage'⟩ := turn
    exact ⟨standing, orderly, fun gone => unheard (unheard' gone), stage _ _ stage'⟩
  | closing cpu | closed cpu =>
    rw [busy] at turn
    obtain ⟨supplied, stage'⟩ := turn
    exact ⟨supplied, stage _ _ stage'⟩

theorem ConsoleMove.engine_eq (move : ConsoleMove here next) :
    next.engine = here.engine ∧
      (here.events.receiving = false → next.events.receiving = false) := by
  cases move with
  | take ready received =>
    obtain ⟨-, same⟩ := Channel.of_message received
    rw [same]
    exact ⟨rfl, id⟩
  | respond => exact ⟨rfl, id⟩
  | finish ready received =>
    obtain ⟨-, -, rfl⟩ := Channel.of_ended received
    exact ⟨rfl, id⟩
  | hangUp => exact ⟨rfl, fun _ => rfl⟩
  | leave => exact ⟨rfl, id⟩

/-- The console sends nothing, or a value about the event that it is handling. -/
theorem ConsoleMove.replying_cases (move : ConsoleMove here next) :
    here.replying = [] ∨
      ∃ event value console, here.display = .handling event ∧
        here.console.handle event = (some value, console) ∧
          next = here.respond (some value) console := by
  cases move with
  | @respond event reply console handling handled =>
    cases reply with
    | none => exact .inl (replying_of_handling handling handled)
    | some value => exact .inr ⟨event, value, console, handling, handled, rfl⟩
  | take waiting | finish waiting =>
    rw [replying, waiting]
    exact .inl rfl
  | hangUp leaving =>
    rw [replying, leaving]
    exact .inl rfl
  | leave hungUp =>
    rw [replying, hungUp]
    exact .inl rfl

theorem ConsoleMove.turn (move : ConsoleMove here next) (wired : here.Wired)
    (turn : Turn requests sent here) : Turn requests (sent + here.replying.length) next := by
  obtain ⟨engine, unheard⟩ := move.engine_eq
  refine turn.onward engine unheard fun asked supplied stage => ?_
  rcases move.replying_cases with silent | ⟨event, value, console, handling, handled, rfl⟩
  · rw [silent]
    exact stage.withheld (move.withholds wired turn.openRequests_le_one silent)
  · rw [replying_of_handling handling handled]
    exact stage.replied wired (turn.receiving_of_reply wired handling handled) handling handled

end Duet
end Minicomputer
