import Minicomputer.Proofs.Channel.Transfer

/-!
# Delivery

Whatever the capacity of a channel is, and however the operations of a sender and a receiver
interleave, their history tells of a queue: what has been received is the beginning of what has been
sent, and only what is sent after the receiver has closed is refused.

* `Transfer.Kept` -- what holds all the time;
* `Transfer.Emptied` -- what has been received since the sender closed;
* `Transfer.delivers_a_prefix` -- the result.
-/

namespace Minicomputer
namespace Transfer

variable {α : Type} {here next later : Transfer α}
  {history before after entries : List (Entry α)} {capacity : Option Nat}

/-! ## What holds all the time -/

/-- What the history of the operations has to do with the capacity of the channel, and with what is
queued. -/
structure Kept (capacity : Option Nat) (history : List (Entry α)) (here : Transfer α) : Prop where
  sides : Sides history here
  capacity_eq : here.channel.capacity = capacity
  bound : ∀ bound, capacity = some bound → here.channel.queue.size ≤ bound
  inOrder : received history <+: accepted history
  queue : here.channel.receiving = true →
    accepted history = received history ++ here.channel.queue.toList
  order : offered history = accepted history ++ refused history
  unrefused : here.channel.receiving = true → refused history = []
  handedBack : ∀ message back, .send message (.error back) ∈ history →
    back = message ∧ here.channel.receiving = false
  /-- Nothing is ever queued in a channel that holds nothing. -/
  handedOver : capacity = some 0 → received history = accepted history
  ended : ∀ call, call ≠ .tryRecv → .receive call (.ok none) ∈ history →
    here.channel.sending = false ∧ received history = offered history ∧ refused history = []

theorem kept_start (capacity : Option Nat) : Kept capacity [] (start (α := α) capacity) where
  sides :=
    ⟨by simp [start, Channel.fresh], by simp [start, Channel.fresh], fun _ => rfl, fun _ => rfl⟩
  capacity_eq := rfl
  bound _ _ := Nat.zero_le _
  inOrder := List.prefix_rfl
  queue _ := rfl
  order := rfl
  unrefused _ := rfl
  handedBack := nofun
  handedOver _ := rfl
  ended := nofun

section Step

variable (effect : Effect here entries next) (kept : Kept capacity history here)

include effect kept

theorem Effect.accepted_eq (listening : next.channel.receiving = true) :
    accepted (history ++ entries) =
      received (history ++ entries) ++ next.channel.queue.toList := by
  rw [accepted_append, received_append, kept.queue (effect.listening_of_next listening),
    List.append_assoc, effect.queue listening, List.append_assoc]

theorem Effect.unchanged (unheard : next.channel.receiving = false) :
    accepted (history ++ entries) = accepted history ∧
      received (history ++ entries) = received history := by
  obtain ⟨unaccepted, unreceived, -⟩ := effect.unheard kept.sides unheard
  rw [accepted_append, received_append, unaccepted, unreceived, List.append_nil, List.append_nil]
  exact ⟨rfl, rfl⟩

theorem Effect.inOrder : received (history ++ entries) <+: accepted (history ++ entries) := by
  cases heard : next.channel.receiving with
  | true => exact effect.accepted_eq kept heard ▸ List.prefix_append _ _
  | false =>
    obtain ⟨accepted_eq, received_eq⟩ := effect.unchanged kept heard
    rw [accepted_eq, received_eq]
    exact kept.inOrder

/-- Nothing is accepted after the first refusal. -/
theorem Effect.order :
    offered (history ++ entries) =
      accepted (history ++ entries) ++ refused (history ++ entries) := by
  rw [offered_append, accepted_append, refused_append, kept.order, effect.offered_eq]
  cases heard : here.channel.receiving with
  | true => rw [kept.unrefused heard, List.append_nil, List.nil_append, List.append_assoc]
  | false =>
    have unheard := effect.receiving_of_closed heard
    rw [(effect.unheard kept.sides unheard).1, List.append_nil, List.nil_append, List.append_assoc]

theorem Effect.handedOver (holds_nothing : capacity = some 0) :
    received (history ++ entries) = accepted (history ++ entries) := by
  cases heard : next.channel.receiving with
  | true =>
    have bounded := kept.capacity_eq.trans holds_nothing
    have size := effect.size_le bounded (kept.bound 0 holds_nothing)
    have empty : next.channel.queue.toList = [] :=
      List.eq_nil_of_length_eq_zero ((Queue.length_toList _).trans (Nat.le_zero.mp size))
    rw [effect.accepted_eq kept heard, empty, List.append_nil]
  | false =>
    obtain ⟨accepted_eq, received_eq⟩ := effect.unchanged kept heard
    rw [accepted_eq, received_eq]
    exact kept.handedOver holds_nothing

/-- When the sender has closed and everything that was sent has been received, nothing more
comes. -/
theorem Effect.still_ended (closed : here.channel.sending = false)
    (all : received history = offered history) (unrefused : refused history = []) :
    received (history ++ entries) = offered (history ++ entries) ∧
      refused (history ++ entries) = [] := by
  obtain ⟨unsent, unaccepted, none_refused⟩ := effect.unsent kept.sides closed
  have accepted_eq : received history = accepted history := by
    rw [all, kept.order, unrefused, List.append_nil]
  have unreceived : received entries = [] := by
    have inOrder := effect.inOrder kept
    rw [received_append, accepted_append, accepted_eq, List.prefix_append_right_inj, unaccepted]
      at inOrder
    exact List.prefix_nil.mp inOrder
  rw [received_append, offered_append, refused_append, unreceived, unsent, none_refused, unrefused,
    all]
  exact ⟨rfl, rfl⟩

theorem Effect.ended {call : Channel.Call} (waits : call ≠ .tryRecv)
    (ended : .receive call (.ok none) ∈ history ++ entries) :
    next.channel.sending = false ∧ received (history ++ entries) = offered (history ++ entries) ∧
      refused (history ++ entries) = [] := by
  rcases List.mem_append.mp ended with earlier | now
  · obtain ⟨closed, all, unrefused⟩ := kept.ended call waits earlier
    exact ⟨effect.sending_of_closed closed, effect.still_ended kept closed all unrefused⟩
  · obtain ⟨closed, empty, asked⟩ := effect.of_ended waits now
    have listening := kept.sides.listening asked
    have unrefused := kept.unrefused listening
    have all : received history = offered history := by
      rw [kept.order, unrefused, kept.queue listening, empty, List.append_nil, List.append_nil]
    exact ⟨effect.sending_of_closed closed, effect.still_ended kept closed all unrefused⟩

end Step

theorem Effect.kept (effect : Effect here entries next) (kept : Kept capacity history here) :
    Kept capacity (history ++ entries) next where
  sides := effect.sides kept.sides
  capacity_eq := effect.capacity_eq.trans kept.capacity_eq
  bound bound bounded :=
    effect.size_le (kept.capacity_eq.trans bounded) (kept.bound bound bounded)
  inOrder := effect.inOrder kept
  queue := effect.accepted_eq kept
  order := effect.order kept
  unrefused listening := by
    rw [refused_append, kept.unrefused (effect.listening_of_next listening),
      effect.refused_of_listening listening]
    rfl
  handedBack message back failed := by
    rcases List.mem_append.mp failed with earlier | now
    · exact (kept.handedBack message back earlier).imp_right effect.receiving_of_closed
    · exact (effect.of_refused now).imp_right effect.receiving_of_closed
  handedOver := effect.handedOver kept
  ended _ := effect.ended kept

/-- What holds at one moment holds at all later ones. -/
theorem Runs.kept (onward : Runs here after later) (kept : Kept capacity before here) :
    Kept capacity (before ++ after) later := by
  induction onward with
  | refl => rwa [List.append_nil]
  | step _ move ih =>
    rw [← List.append_assoc]
    exact move.effect.kept ih

theorem Runs.kept_of_start (reached : Runs (start capacity) history here) :
    Kept capacity history here :=
  reached.kept (kept_start capacity)

/-! ## After the sender has closed -/

/-- What a receiver has got out of a queue that nothing is added to: the messages one by one, and
then only the end. -/
structure Emptied (queue : List α) (after : List (Entry α)) (later : Transfer α) : Prop where
  inTurn : ∀ (i : Nat) (returned : Except Channel.Timeout (Option α)),
    (answers after)[i]? = some returned → returned = .ok queue[i]?
  received_eq : received after = queue.take (answers after).length
  rest : later.channel.receiving = true →
    later.channel.queue.toList = queue.drop (answers after).length

theorem emptied_start : Emptied here.channel.queue.toList [] here where
  inTurn := nofun
  received_eq := rfl
  rest _ := rfl

/-- When the sender has closed, a call returns the oldest message, or the end if there is none. -/
theorem Effect.of_closed (effect : Effect here entries next) (sides : Sides history here)
    (closed : here.channel.sending = false) :
    (answers entries = [] ∧ received entries = [] ∧
        (next.channel.receiving = true → next.channel.queue = here.channel.queue)) ∨
      (here.channel.receiving = true ∧
        answers entries = [.ok here.channel.queue.toList.head?] ∧
        received entries = here.channel.queue.toList.head?.toList ∧
        next.channel.queue.toList = here.channel.queue.toList.tail) := by
  cases effect with
  | offer | ask | closeSender => exact .inl ⟨rfl, rfl, fun _ => rfl⟩
  | closeReceiver => exact .inl ⟨rfl, rfl, nofun⟩
  | accept offered | refuse offered | handOver offered =>
    cases offered.symm.trans (sides.resting closed)
  | take asked order =>
    rw [order]
    exact .inr ⟨sides.listening asked, rfl, rfl, rfl⟩
  | finish asked empty =>
    rw [empty]
    exact .inr ⟨sides.listening asked, rfl, rfl, rfl⟩
  | giveUp _ _ present => cases present.symm.trans closed

theorem Effect.emptied (effect : Effect here entries next) (sides : Sides history here)
    (closed : here.channel.sending = false) {queue : List α} (emptied : Emptied queue after here) :
    Emptied queue (after ++ entries) next := by
  rcases effect.of_closed sides closed with
    ⟨unanswered, unreceived, same⟩ | ⟨listening, answered, received, rest⟩
  · have answers_eq : answers (after ++ entries) = answers after := by
      rw [answers_append, unanswered, List.append_nil]
    refine ⟨?_, ?_, fun present => ?_⟩
    · rw [answers_eq]
      exact emptied.inTurn
    · rw [answers_eq, received_append, unreceived, List.append_nil]
      exact emptied.received_eq
    · rw [answers_eq, same present]
      exact emptied.rest (effect.listening_of_next present)
  · rw [emptied.rest listening, List.head?_drop] at answered received
    rw [emptied.rest listening, List.tail_drop] at rest
    have length_eq : (answers (after ++ entries)).length = (answers after).length + 1 := by
      rw [answers_append, answered, List.length_append]
      rfl
    refine ⟨fun i returned found => ?_, ?_, fun _ => ?_⟩
    · rw [answers_append, answered, List.getElem?_append] at found
      split at found
      next => exact emptied.inTurn i returned found
      next later =>
        obtain ⟨last, rfl⟩ := List.getElem?_eq_some_iff.mp found
        have here_eq : i = (answers after).length := by
          simp only [List.length_singleton] at last
          omega
        simp [here_eq]
    · rw [length_eq, List.take_add_one, received_append, emptied.received_eq, received]
    · rw [length_eq, rest]

/-! ## What happens once an end is closed -/

section Onward

variable (onward : Runs here after later) (kept : Kept capacity before here)

include onward kept

theorem Runs.unsent (closed : here.channel.sending = false) :
    later.channel.sending = false ∧
      offered after = [] ∧ accepted after = [] ∧ refused after = [] := by
  induction onward with
  | refl => exact ⟨closed, rfl, rfl, rfl⟩
  | step reached move ih =>
    obtain ⟨closed, unsent, unaccepted, unrefused⟩ := ih
    obtain ⟨unsent', unaccepted', unrefused'⟩ :=
      move.effect.unsent (reached.kept kept).sides closed
    rw [offered_append, accepted_append, refused_append, unsent, unaccepted, unrefused, unsent',
      unaccepted', unrefused']
    exact ⟨move.effect.sending_of_closed closed, rfl, rfl, rfl⟩

theorem Runs.emptied (closed : here.channel.sending = false) :
    Emptied here.channel.queue.toList after later := by
  induction onward with
  | refl => exact emptied_start
  | step reached move ih =>
    exact move.effect.emptied (reached.kept kept).sides (reached.unsent kept closed).1 ih

theorem Runs.unheard (closed : here.channel.receiving = false) :
    later.channel.receiving = false ∧ received after = [] ∧ answers after = [] ∧
      ∀ message returned, .send message returned ∈ after → returned = .error message := by
  induction onward with
  | refl => exact ⟨closed, rfl, rfl, nofun⟩
  | step reached move ih =>
    obtain ⟨closed, unreceived, unanswered, failed⟩ := ih
    have closed' := move.effect.receiving_of_closed closed
    obtain ⟨-, unreceived', unanswered'⟩ := move.effect.unheard (reached.kept kept).sides closed'
    refine ⟨closed', ?_, ?_, fun message returned sent => ?_⟩
    · rw [received_append, unreceived, unreceived']
      rfl
    · rw [answers_append, unanswered, unanswered']
      rfl
    · rcases List.mem_append.mp sent with earlier | now
      · exact failed message returned earlier
      · exact move.effect.send_of_closed closed now

theorem Runs.listening_of_answer {returned : Except Channel.Timeout (Option α)}
    (answered : returned ∈ answers after) : here.channel.receiving = true := by
  refine eq_true_of_ne_false fun closed => ?_
  obtain ⟨-, -, unanswered, -⟩ := onward.unheard kept closed
  rw [unanswered] at answered
  cases answered

/-- Once the sender has closed, a call finds the end only when everything has been received. -/
theorem Runs.received_of_end (closed : here.channel.sending = false) {call : Channel.Call}
    (ended : .receive call (.ok none) ∈ after) :
    received (before ++ after) = offered (before ++ after) ∧ refused (before ++ after) = [] := by
  have answered : .ok none ∈ answers after := List.mem_filterMap.mpr ⟨_, ended, rfl⟩
  have listening := onward.listening_of_answer kept answered
  have emptied := onward.emptied kept closed
  obtain ⟨-, unsent, -, unrefused⟩ := onward.unsent kept closed
  obtain ⟨i, found⟩ := List.mem_iff_getElem?.mp answered
  have all : received after = here.channel.queue.toList := by
    have last : here.channel.queue.toList.length ≤ i := by
      simpa using emptied.inTurn i _ found
    have counted : i < (answers after).length := (List.getElem?_eq_some_iff.mp found).1
    rw [emptied.received_eq]
    exact List.take_of_length_le (Nat.le_trans last (Nat.le_of_lt counted))
  have none_refused := kept.unrefused listening
  rw [received_append, offered_append, refused_append, unsent, unrefused, none_refused, all,
    ← kept.queue listening, kept.order, none_refused]
  exact ⟨by simp, rfl⟩

end Onward

/-- A call that is under way when the sender has closed does not wait any longer. -/
theorem exists_answer (closed : here.channel.sending = false) {call : Channel.Call}
    (asked : here.asking = some call) :
    ∃ returned next, Move here [.receive call returned] next := by
  cases popped : here.channel.queue.pop? with
  | some pair =>
    obtain ⟨message, rest⟩ := pair
    exact ⟨_, _, .answer asked (Channel.receive_of_pop popped) rfl⟩
  | none => exact ⟨_, _, .answer asked (Channel.receive_of_gone popped closed) rfl⟩

/-- Neither does a send when the receiver has closed. -/
theorem exists_refusal (closed : here.channel.receiving = false) {message : α}
    (offered : here.sending = some message) :
    ∃ next, Move here [.send message (.error message)] next :=
  ⟨_, .refuse offered (Channel.send_of_gone closed)⟩

/-- With any capacity, and however the operations of a sender and a receiver interleave:

* what has been received is the beginning of what has been accepted, and the rest of it is queued as
  long as the receiver has not closed; no more than the capacity is ever queued;
* once the sender has closed, no call waits: the calls return what was accepted and not yet
  received, one message after the other, and then only the end, and when one has returned the end,
  everything that was sent has been received and nothing has been refused;
* a call that waits returns the end only if the sender has closed and this is so;
* once the receiver has closed, no send waits: every send fails, and nothing more is received;
* what is sent is accepted up to some point and refused from there on, and a send fails only when
  the receiver has closed, handing back its message;
* a channel that holds nothing refuses exactly what is not received. -/
theorem delivers_a_prefix (capacity : Option Nat) {before after : List (Entry α)}
    {here later : Transfer α} (reached : Runs (start capacity) before here)
    (onward : Runs here after later) :
    (received before <+: accepted before ∧
      (.closeReceiver ∉ before →
        accepted before = received before ++ here.channel.queue.toList) ∧
      ∀ bound, capacity = some bound → here.channel.queue.size ≤ bound) ∧
    (.closeSender ∈ before →
      (∀ call, here.asking = some call →
        ∃ returned next, Move here [.receive call returned] next) ∧
      (∀ (i : Nat) (returned : Except Channel.Timeout (Option α)),
        (answers after)[i]? = some returned →
          returned = .ok (accepted before)[(received before).length + i]?) ∧
      ∀ call, .receive call (.ok none) ∈ after →
        received (before ++ after) = offered (before ++ after) ∧
          refused (before ++ after) = []) ∧
    (∀ call, call ≠ .tryRecv → .receive call (.ok none) ∈ before →
      .closeSender ∈ before ∧ received before = offered before ∧ refused before = []) ∧
    (.closeReceiver ∈ before →
      (∀ message, here.sending = some message →
        ∃ next, Move here [.send message (.error message)] next) ∧
      (∀ message returned, .send message returned ∈ after → returned = .error message) ∧
      received after = []) ∧
    (offered before = accepted before ++ refused before ∧
      ∀ message back, .send message (.error back) ∈ before →
        back = message ∧ .closeReceiver ∈ before) ∧
    (capacity = some 0 →
      offered before = received before ++ refused before ∧
        (refused before).length = (offered before).length - (received before).length) := by
  have kept := reached.kept_of_start
  refine ⟨⟨kept.inOrder, fun listening => ?_, kept.bound⟩, fun closed => ?_,
    fun call waits ended => ?_, fun closed => ?_, ⟨kept.order, fun message back failed => ?_⟩,
    fun holds_nothing => ?_⟩
  · exact kept.queue (kept.sides.receiving_of_not_mem listening)
  · rw [← kept.sides.sending] at closed
    refine ⟨fun call asked => exists_answer closed asked, fun i returned found => ?_,
      fun call ended => onward.received_of_end kept closed ended⟩
    have listening := onward.listening_of_answer kept (List.mem_of_getElem? found)
    rw [(onward.emptied kept closed).inTurn i returned found, kept.queue listening,
      List.getElem?_append_right (Nat.le_add_right ..), Nat.add_sub_cancel_left]
  · obtain ⟨closed, all, unrefused⟩ := kept.ended call waits ended
    exact ⟨kept.sides.sending.mp closed, all, unrefused⟩
  · rw [← kept.sides.receiving] at closed
    obtain ⟨-, unreceived, -, failed⟩ := onward.unheard kept closed
    exact ⟨fun message offered => exists_refusal closed offered, failed, unreceived⟩
  · exact (kept.handedBack message back failed).imp_right kept.sides.receiving.mp
  · have all : offered before = received before ++ refused before := by
      rw [kept.handedOver holds_nothing, kept.order]
    refine ⟨all, ?_⟩
    rw [all, List.length_append, Nat.add_sub_cancel_left]

/-- Of three messages over a channel that holds nothing, one is taken and the others are refused. -/
theorem delivers_a_prefix_of_three :
    let before : List (Entry Nat) :=
      [.send 1 (.ok ()), .receive .recv (.ok (some 1)), .closeReceiver]
    let after : List (Entry Nat) := [.send 2 (.error 2), .send 3 (.error 3), .closeSender]
    ∃ here later, Runs (start (some 0)) before here ∧ Runs here after later ∧
      received before <+: accepted before ∧ received after = [] ∧
      ∀ message returned, .send message returned ∈ after → returned = .error message := by
  intro before after
  let here : Transfer Nat := ⟨⟨some 0, .empty, true, false⟩, none, none⟩
  have begun : Runs (start (some 0) : Transfer Nat) [] (start (some 0)) := .refl
  have asked := (begun.step (.ask .recv rfl rfl)).step (.offer 1 rfl rfl)
  have reached : Runs (start (some 0)) before here :=
    (asked.step (.handOver rfl rfl rfl rfl rfl)).step (.closeReceiver rfl rfl)
  have alone : Runs here [] here := .refl
  have refused := (alone.step (.offer 2 rfl rfl)).step (.refuse rfl rfl)
  have onward : Runs here after ⟨⟨some 0, .empty, false, false⟩, none, none⟩ :=
    ((refused.step (.offer 3 rfl rfl)).step (.refuse rfl rfl)).step (.closeSender rfl rfl)
  obtain ⟨⟨inOrder, -⟩, -, -, unheard, -⟩ := delivers_a_prefix (some 0) reached onward
  obtain ⟨-, failed, unreceived⟩ := unheard (by simp [before])
  exact ⟨_, _, reached, onward, inOrder, unreceived, failed⟩

/-! ## The messages of a list in turn -/

/-- If the receiver stays to the end, it makes no difference when who acts: it gets what it would
get if it took every message at once. -/
theorem relay_of_ended (reached : Runs (start capacity) history here) {call : Channel.Call}
    (waits : call ≠ .tryRecv) (ended : .receive call (.ok none) ∈ history) :
    Channel.relay capacity none (offered history) =
      ⟨received history, (refused history).length⟩ := by
  obtain ⟨-, all, unrefused⟩ := reached.kept_of_start.ended call waits ended
  rw [Channel.relay_none, all, unrefused]
  rfl

/-- Nor does it if the channel holds nothing, however many messages the receiver takes. -/
theorem relay_of_handedOver (reached : Runs (start (some 0)) history here) :
    Channel.relay (some 0) (some (received history).length) (offered history) =
      ⟨received history, (refused history).length⟩ := by
  have kept := reached.kept_of_start
  rw [Channel.relay_some, kept.order, ← kept.handedOver rfl, List.take_left, List.length_append,
    Nat.add_sub_cancel_left]

end Transfer
end Minicomputer
