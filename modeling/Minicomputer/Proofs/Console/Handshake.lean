import Minicomputer.Architecture.Standard
import Minicomputer.Proofs.Console.Exchange

/-!
# The handshake between a processor and a console

Whatever the bound of the channel for the events is, and in whatever order the two parties act,
neither waits for the other in vain, and no answer goes astray.  That holds for a console with any
output and any input, since it may give up at any time.

* `Ledger`, `Duet.Reaches` -- what has been exchanged on the way to a configuration;
* `Duet.Agreed` -- what holds all the time;
* `Duet.handshake_in_step` -- the result.
-/

namespace Minicomputer

/-- How many requests have got through, the values that the console has sent, and those that the
processor has received. -/
structure Ledger where
  requests : Nat
  sent : List UInt16
  received : List UInt16

/-- Nothing has been exchanged. -/
def Ledger.empty : Ledger :=
  ⟨0, [], []⟩

namespace Duet

/-- What can come about, and what has been exchanged on the way.  The console may give up whenever
it handles an event or has handled one. -/
inductive Reaches (first : Duet) : Ledger → Duet → Prop
  | start : Reaches first .empty first
  | processor {ledger : Ledger} {here next : Duet} (reached : Reaches first ledger here)
      (move : ProcessorMove here next) :
      Reaches first
        { ledger with
          requests := ledger.requests + here.requesting
          received := ledger.received ++ here.taking } next
  | console {ledger : Ledger} {here next : Duet} (reached : Reaches first ledger here)
      (move : ConsoleMove here next) :
      Reaches first { ledger with sent := ledger.sent ++ here.replying } next
  | abandon {ledger : Ledger} {here : Duet} (reached : Reaches first ledger here)
      (watching : here.display.isWatching = true) (reason : ConsoleFailure) :
      Reaches first ledger (here.abandon reason)

/-- Both have come to their end. -/
def Finished (duet : Duet) : Prop :=
  (∃ cpu, duet.engine = .closed cpu) ∧ duet.display = .gone

variable {here next : Duet} {requests sent : Nat}

/-! ## What holds all the time -/

/-- What the processor receives has been on its way, and nothing else gets lost. -/
theorem ProcessorMove.queue (move : ProcessorMove here next) (turn : Turn requests sent here) :
    here.input.queue.toList = here.taking ++ next.input.queue.toList := by
  obtain ⟨engine, display, console, events, input⟩ := here
  cases move with
  | note busy | send busy | handOver busy | refused busy | cycle busy | stop busy =>
    cases busy
    rfl
  | receive busy received =>
    cases busy
    obtain ⟨order, -⟩ := Channel.of_message received
    rw [order, taking]
    dsimp only
    rw [received]
    rfl
  | unsupplied busy received =>
    cases busy
    obtain ⟨empty, -, -⟩ := Channel.of_ended received
    rw [empty, taking]
    dsimp only
    rw [received]
    rfl
  | close closing =>
    cases closing
    obtain ⟨supplied, stage⟩ := turn
    exact stage.empty_of_unasked

theorem ConsoleMove.queue (move : ConsoleMove here next) (wired : here.Wired)
    (turn : Turn requests sent here) :
    next.input.queue.toList = here.input.queue.toList ++ here.replying := by
  rcases move.replying_cases with silent | ⟨event, value, console, handling, handled, rfl⟩
  · rw [silent, List.append_nil]
    exact (move.withholds wired turn.openRequests_le_one silent).queue
  · rw [replying_of_handling handling handled]
    exact deliver_queue wired.unbounded fun _ => turn.receiving_of_reply wired handling handled

/-- What has been exchanged fits to what is on its way, and to what is typed at the console. -/
structure Agreed (typed : List UInt16) (ledger : Ledger) (duet : Duet) : Prop where
  wired : duet.Wired
  turn : Turn ledger.requests ledger.sent.length duet
  received : ledger.sent = ledger.received ++ duet.input.queue.toList
  sent : ledger.sent <+: typed
  /-- A console that does not answer any more may have passed over lines. -/
  left : duet.console.phase = .answering →
    ledger.sent ++ Console.typed duet.console.lines = typed

variable {typed : List UInt16} {ledger : Ledger}

theorem agreed_start (capacity : Option Nat) (cpu : Cpu) (input : Bytes) (output : Output) :
    Agreed (Console.typed (Text.linesAt 10 input)) .empty
      (start capacity cpu (.new input output)) where
  wired := wired_start rfl capacity
  turn := ⟨_, Cpu.start_orderly _, nofun, .settled rfl rfl rfl (.inl rfl) fun _ => .inl rfl⟩
  received := rfl
  sent := List.nil_prefix
  left _ := rfl

theorem ProcessorMove.console_eq (move : ProcessorMove here next) :
    next.console = here.console := by
  cases move with
  | note | send | handOver | refused | receive | unsupplied | cycle | stop | close => rfl

theorem ProcessorMove.agreed (move : ProcessorMove here next)
    (agreed : Agreed typed ledger here) :
    Agreed typed
      { ledger with
        requests := ledger.requests + here.requesting
        received := ledger.received ++ here.taking } next where
  wired := move.wired agreed.wired
  turn := move.turn agreed.wired agreed.turn
  received := by
    rw [agreed.received, move.queue agreed.turn, List.append_assoc]
  sent := agreed.sent
  left := by
    rw [move.console_eq]
    exact agreed.left

theorem answering_of_reply {before after : Console} {event : Event} {value : UInt16}
    (handled : before.handle event = (some value, after)) : after.phase = .answering := by
  have cases := before.handle_cases event
  rw [handled] at cases
  rcases cases with ⟨-, silent, -⟩ | ⟨-, -, -, answering⟩ | ⟨silent, -⟩
  · cases silent
  · exact answering
  · cases silent

/-- A console that answers sends the values as they are typed. -/
theorem ConsoleMove.typed_eq (move : ConsoleMove here next)
    (answering : next.console.phase = .answering) :
    here.console.phase = .answering ∧
      Console.typed here.console.lines = here.replying ++ Console.typed next.console.lines := by
  cases move with
  | @respond event reply console handling handled =>
    have before : here.console.phase = .answering := by
      apply Decidable.byContradiction
      intro deaf
      have deaf' := (Console.handle_of_ne_answering deaf event).2
      rw [handled] at deaf'
      exact deaf' answering
    have typed := @Console.typed_handle here.console event
    rw [handled] at typed
    rw [replying_of_handling handling handled]
    exact ⟨before, typed answering⟩
  | take waiting | finish waiting =>
    rw [replying, waiting]
    exact ⟨answering, rfl⟩
  | hangUp leaving =>
    rw [replying, leaving]
    exact ⟨answering, rfl⟩
  | leave hungUp =>
    rw [replying, hungUp]
    exact ⟨answering, rfl⟩

theorem ConsoleMove.agreed (move : ConsoleMove here next) (agreed : Agreed typed ledger here) :
    Agreed typed { ledger with sent := ledger.sent ++ here.replying } next where
  wired := move.wired agreed.wired
  turn := by
    rw [List.length_append]
    exact move.turn agreed.wired agreed.turn
  received := by
    rw [move.queue agreed.wired agreed.turn, ← List.append_assoc, ← agreed.received]
  sent := by
    rcases move.replying_cases with silent | ⟨event, value, console, handling, handled, rfl⟩
    · rw [silent, List.append_nil]
      exact agreed.sent
    · obtain ⟨before, lines⟩ := move.typed_eq (answering_of_reply handled)
      rw [← agreed.left before, lines, ← List.append_assoc]
      exact List.prefix_append _ _
  left answering := by
    obtain ⟨before, lines⟩ := move.typed_eq answering
    rw [List.append_assoc, ← lines]
    exact agreed.left before

theorem agreed_abandon (agreed : Agreed typed ledger here)
    (watching : here.display.isWatching = true) (reason : ConsoleFailure) :
    Agreed typed ledger (here.abandon reason) where
  wired := wired_abandon agreed.wired watching reason
  turn := agreed.turn.onward rfl id fun _ _ stage => stage.withheld
    (withholds_abandon agreed.turn.openRequests_le_one watching reason)
  received := agreed.received
  sent := agreed.sent
  left := nofun

theorem Reaches.agreed {first : Duet} (reached : Reaches first ledger here)
    (start : Agreed typed .empty first) : Agreed typed ledger here := by
  induction reached with
  | start => exact start
  | processor _ move ih => exact move.agreed ih
  | console _ move ih => exact move.agreed ih
  | abandon _ watching reason ih => exact agreed_abandon ih watching reason

/-! ## No party waits in vain -/

/-- A processor that waits for its value waits for a console that can do something. -/
theorem Agreed.not_waiting (agreed : Agreed typed ledger here)
    {following : Option UInt16 → Dialogue Cpu} (busy : here.engine = .busy (.receive following))
    (waiting : here.display = .waiting) (unhandled : here.unhandled = [])
    (empty : here.input.queue.toList = []) : here.input.sending = false := by
  have turn := agreed.turn
  unfold Turn at turn
  rw [busy] at turn
  obtain ⟨standing, ⟨⟨asked, -, -⟩, -⟩, unheard, stage⟩ := turn
  have quiet : here.openRequests = 0 := by
    rw [openRequests, unhandled]
    rfl
  -- Without a request the console has gone, and here it is still there.
  have isAsked : standing.asked = true := by
    rw [asked]
    apply Decidable.byContradiction
    intro unobserved
    have gone := unheard (Bool.not_eq_true _ ▸ unobserved)
    rw [agreed.wired.listening, waiting] at gone
    cases gone
  cases stage with
  | settled unasked => cases unasked.symm.trans isAsked
  | pending _ one => cases quiet.symm.trans one
  | answered _ _ reply => cases empty.symm.trans reply
  | hopeless _ _ _ _ closing =>
    rcases closing with ended | away
    · exact ended
    · rw [waiting] at away
      cases away

theorem Agreed.finished_of_stuck (agreed : Agreed typed ledger here)
    (stuck : ∀ next, ¬ Move here next) : here.Finished := by
  have display := display_of_stuck fun next move => stuck next (.console move)
  rcases idle_or_waiting_of_stuck agreed.wired (display.imp_right fun waits => ⟨waits.1, waits.2.1⟩)
      (fun next move => stuck next (.processor move)) with
    idle | ⟨⟨following, busy⟩, waiting, empty, dry, sending⟩
  · exact finished_of_idle agreed.wired stuck idle
  · have handled : here.unhandled = [] := by
      rw [unhandled, waiting, empty]
      rfl
    cases sending.symm.trans (agreed.not_waiting busy waiting handled dry)

theorem Finished.stuck (finished : here.Finished) : ¬ Move here next := by
  obtain ⟨⟨cpu, closed⟩, gone⟩ := finished
  rintro (move | move)
  · cases move with
    | close closing => cases closed.symm.trans closing
    | note busy | send busy | handOver busy | refused busy | receive busy | unsupplied busy
      | cycle busy | stop busy => cases closed.symm.trans busy
  · cases move with
    | take display | respond display | finish display | hangUp display | leave display =>
      cases gone.symm.trans display

/-- A value on its way is the answer to the request of the `IN` that the processor is in. -/
theorem Agreed.awaited (agreed : Agreed typed ledger here) :
    here.input.queue.toList = [] ∨
      ∃ value dialogue, here.input.queue.toList = [value] ∧ here.engine = .busy dialogue ∧
        Cpu.Awaits dialogue ∧ ledger.requests = ledger.sent.length := by
  have turn := agreed.turn
  unfold Turn at turn
  cases engine : here.engine with
  | busy dialogue =>
    rw [engine] at turn
    obtain ⟨standing, orderly, -, stage⟩ := turn
    cases stage with
    | settled _ _ empty => exact .inl empty
    | pending _ _ empty => exact .inl empty
    | hopeless _ _ empty => exact .inl empty
    | @answered value isAsked _ reply even =>
      obtain ⟨rest, rfl, awaits⟩ := Cpu.exists_receive_of_asked orderly isAsked
      exact .inr ⟨value, _, reply, rfl, awaits, even⟩
  | closing cpu | closed cpu =>
    rw [engine] at turn
    obtain ⟨supplied, stage⟩ := turn
    exact .inl stage.empty_of_unasked

/-- The console does not get a request when it has let go of its end of the values. -/
theorem Agreed.sending_of_request (agreed : Agreed typed ledger here)
    (handling : here.display = .handling .inputRequested) : here.input.sending = true := by
  have opened : here.openRequests ≠ 0 := by
    rw [openRequests_of_handling handling]
    exact Nat.succ_ne_zero _
  obtain ⟨asked, supplied, -, stage⟩ := agreed.turn.exists_stage
  exact (stage.of_open opened).2.2.2

theorem Agreed.balance (agreed : Agreed typed ledger here) :
    ledger.requests = ledger.sent.length ∨ ledger.requests = ledger.sent.length + 1 := by
  obtain ⟨asked, supplied, -, stage⟩ := agreed.turn.exists_stage
  cases stage with
  | settled _ _ _ even => exact even.imp_right And.right
  | pending _ _ _ ahead => exact .inr ahead
  | answered _ _ _ even => exact .inl even
  | hopeless _ _ _ ahead => exact .inr ahead

/-- Between any processor and any console, with any bound of the channel for the events and in any
order of their moves, also when the console gives up at any time: something can happen unless both
have come to their end; the requests that have got through are as many as the answers, or one more;
at most one value is on its way, and only while the processor waits for it in the `IN` that has
asked for it; the console gets no request after it has let go of its end of the values; and the
processor receives the values in the order in which they are typed, without a gap. -/
theorem handshake_in_step (capacity : Option Nat) (cpu : Cpu) (input : Bytes) (output : Output)
    (ledger : Ledger) (duet : Duet)
    (reached : Reaches (start capacity cpu (.new input output)) ledger duet) :
    ((∃ next, Move duet next) ↔ ¬ duet.Finished) ∧
      (ledger.requests = ledger.sent.length ∨ ledger.requests = ledger.sent.length + 1) ∧
      (duet.input.queue.toList = [] ∨
        ∃ value dialogue, duet.input.queue.toList = [value] ∧ duet.engine = .busy dialogue ∧
          Cpu.Awaits dialogue ∧ ledger.sent = ledger.received ++ [value] ∧
            ledger.requests = ledger.sent.length) ∧
      (duet.display = .handling .inputRequested → duet.input.sending = true) ∧
      ledger.received <+: ledger.sent ∧
      ledger.sent <+: Console.typed (Text.linesAt 10 input) := by
  have agreed := reached.agreed (agreed_start capacity cpu input output)
  refine ⟨?_, agreed.balance, ?_, agreed.sending_of_request, ?_, agreed.sent⟩
  · constructor
    · rintro ⟨next, move⟩ finished
      exact finished.stuck move
    · intro unfinished
      exact Classical.not_forall_not.mp fun stuck => unfinished (agreed.finished_of_stuck stuck)
  · refine agreed.awaited.imp_right ?_
    rintro ⟨value, dialogue, queue, busy, awaits, even⟩
    exact ⟨value, dialogue, queue, busy, awaits, queue ▸ agreed.received, even⟩
  · rw [agreed.received]
    exact List.prefix_append _ _

/-- A program that reads a value and shows it, at a console where a value is typed, with a channel
that passes the events from hand to hand.  The value comes to be on its way. -/
theorem handshake_in_step_echo :
    let program : Program := #[.nullary 0x60, .nullary 0x61, .nullary 0x01]
    let first := start (some 0) (.boot .standard ⟨0, 1⟩ program)
      (.new (Text.toBytes "7\n") .unlimited)
    ∃ ledger duet, Reaches first ledger duet ∧ duet.input.queue.toList = [7] ∧
      (∃ dialogue, duet.engine = .busy dialogue ∧ Cpu.Awaits dialogue) ∧
        ledger.sent = ledger.received ++ [7] ∧ ledger.requests = 1 := by
  intro program first
  have noted := (@Reaches.start first).processor (.note rfl)
  have begun := noted.processor (.cycle rfl (by decide))
  have executing := begun.processor (.note rfl)
  have asked := executing.processor (.handOver rfl rfl rfl rfl)
  have replied := asked.console (.respond rfl rfl)
  have onItsWay : ∃ ledger duet, Reaches first ledger duet ∧ duet.input.queue.toList = [7] ∧
      ledger.requests = 1 :=
    ⟨_, _, replied, by decide +kernel, by decide +kernel⟩
  obtain ⟨ledger, duet, reached, queue, requests⟩ := onItsWay
  obtain ⟨-, -, empty | ⟨value, dialogue, queue', busy, awaits, sent, -⟩, -⟩ :=
    handshake_in_step (some 0) _ _ _ ledger duet reached
  · cases empty.symm.trans queue
  · obtain rfl := List.singleton_inj.mp (queue.symm.trans queue')
    exact ⟨ledger, duet, reached, queue, ⟨dialogue, busy, awaits⟩, sent, requests⟩

end Duet
end Minicomputer
