import Minicomputer.Proofs.Channel

/-!
# A sender and a receiver at the same time

One party sends over a channel while another receives from it.  They act independently: a party
begins an operation when it likes, the operation is over when the channel permits, and in between
the other party goes on.  Either party may close its end between two operations.

What can be observed is the history of the operations that are over, with what they have returned.

* `Transfer.Move`, `Transfer.Runs` -- what can happen, and the history that it leaves;
* `Transfer.Effect` -- what one move does to the queue and to the ends of the channel.
-/

namespace Minicomputer

/-- A channel, and what the parties at its ends are doing. -/
structure Transfer (α : Type) where
  channel : Channel α
  /-- The message of the send that is under way. -/
  sending : Option α
  /-- The call of the receiver that is under way. -/
  asking : Option Channel.Call

namespace Transfer

variable {α : Type}

/-! ## Histories -/

/-- An operation that is over, and what it has returned. -/
inductive Entry (α : Type) where
  /-- A send that has failed hands back a message. -/
  | send (message : α) (returned : Except α Unit)
  | closeSender
  | receive (call : Channel.Call) (returned : Except Channel.Timeout (Option α))
  | closeReceiver

namespace Entry

def offered? : Entry α → Option α
  | send message _ => some message
  | _ => none

def accepted? : Entry α → Option α
  | send message (.ok ()) => some message
  | _ => none

/-- The message that is handed back. -/
def refused? : Entry α → Option α
  | send _ (.error back) => some back
  | _ => none

def answer? : Entry α → Option (Except Channel.Timeout (Option α))
  | receive _ returned => some returned
  | _ => none

def received? : Entry α → Option α
  | receive _ (.ok (some message)) => some message
  | _ => none

end Entry

section Histories

variable (history : List (Entry α))

/-- The messages of all sends, in their order. -/
def offered : List α :=
  history.filterMap Entry.offered?

/-- The messages of the sends that have succeeded. -/
def accepted : List α :=
  history.filterMap Entry.accepted?

/-- The messages that have been handed back. -/
def refused : List α :=
  history.filterMap Entry.refused?

/-- What the calls of the receiver have returned. -/
def answers : List (Except Channel.Timeout (Option α)) :=
  history.filterMap Entry.answer?

def received : List α :=
  history.filterMap Entry.received?

end Histories

/-! ## Moves -/

/-- What can happen next, and which operations are over then. -/
inductive Move (here : Transfer α) : List (Entry α) → Transfer α → Prop
  | offer (message : α) (present : here.channel.sending = true) (idle : here.sending = none) :
      Move here [] { here with sending := some message }
  | accept {message : α} {channel : Channel α} (offered : here.sending = some message)
      (sent : here.channel.send message = .accepted channel) :
      Move here [.send message (.ok ())] { here with channel, sending := none }
  | refuse {message back : α} (offered : here.sending = some message)
      (sent : here.channel.send message = .refused back) :
      Move here [.send message (.error back)] { here with sending := none }
  | ask (call : Channel.Call) (present : here.channel.receiving = true)
      (idle : here.asking = none) :
      Move here [] { here with asking := some call }
  | answer {call : Channel.Call} {result : Received α} {channel : Channel α}
      {returned : Except Channel.Timeout (Option α)} (asked : here.asking = some call)
      (received : here.channel.receive = (result, channel))
      (returns : call.returns result = some returned) :
      Move here [.receive call returned] { here with channel, asking := none }
  /-- A channel that holds nothing passes a message from hand to hand. -/
  | handOver {message : α} {call : Channel.Call} {channel : Channel α}
      {returned : Except Channel.Timeout (Option α)} (offered : here.sending = some message)
      (asked : here.asking = some call) (bound : here.channel.capacity = some 0)
      (passed : here.channel.pass message = some ([message], channel))
      (returns : call.returns (.message message) = some returned) :
      Move here [.send message (.ok ()), .receive call returned]
        { channel, sending := none, asking := none }
  | closeSender (present : here.channel.sending = true) (idle : here.sending = none) :
      Move here [.closeSender] { here with channel := here.channel.closeSender }
  | closeReceiver (present : here.channel.receiving = true) (idle : here.asking = none) :
      Move here [.closeReceiver] { here with channel := here.channel.closeReceiver }

/-- What can come about, and the history on the way. -/
inductive Runs (first : Transfer α) : List (Entry α) → Transfer α → Prop
  | refl : Runs first [] first
  | step {history entries : List (Entry α)} {here next : Transfer α}
      (reached : Runs first history here) (move : Move here entries next) :
      Runs first (history ++ entries) next

/-- A fresh channel between two parties that have not done anything. -/
def start (capacity : Option Nat) : Transfer α :=
  ⟨.fresh capacity, none, none⟩

variable {here next later : Transfer α} {history before after entries : List (Entry α)}
  {capacity : Option Nat}

section Append

variable (before after : List (Entry α))

@[simp] theorem offered_append : offered (before ++ after) = offered before ++ offered after :=
  List.filterMap_append ..

@[simp] theorem accepted_append : accepted (before ++ after) = accepted before ++ accepted after :=
  List.filterMap_append ..

@[simp] theorem refused_append : refused (before ++ after) = refused before ++ refused after :=
  List.filterMap_append ..

@[simp] theorem answers_append : answers (before ++ after) = answers before ++ answers after :=
  List.filterMap_append ..

@[simp] theorem received_append : received (before ++ after) = received before ++ received after :=
  List.filterMap_append ..

end Append

/-! ## What one move does -/

/-- What a move comes to, in terms of the messages that are queued. -/
inductive Effect (here : Transfer α) : List (Entry α) → Transfer α → Prop
  | offer (message : α) (present : here.channel.sending = true) (idle : here.sending = none) :
      Effect here [] { here with sending := some message }
  | accept {message : α} (offered : here.sending = some message)
      (listening : here.channel.receiving = true)
      (room : ∀ bound, here.channel.capacity = some bound → here.channel.queue.size < bound) :
      Effect here [.send message (.ok ())]
        { here with
          channel := { here.channel with queue := here.channel.queue.push message }
          sending := none }
  | refuse {message : α} (offered : here.sending = some message)
      (unheard : here.channel.receiving = false) :
      Effect here [.send message (.error message)] { here with sending := none }
  | ask (call : Channel.Call) (present : here.channel.receiving = true)
      (idle : here.asking = none) :
      Effect here [] { here with asking := some call }
  | take {call : Channel.Call} {message : α} {queue : Queue α} (asked : here.asking = some call)
      (order : here.channel.queue.toList = message :: queue.toList) :
      Effect here [.receive call (.ok (some message))]
        { here with channel := { here.channel with queue }, asking := none }
  | finish {call : Channel.Call} (asked : here.asking = some call)
      (empty : here.channel.queue.toList = []) (closed : here.channel.sending = false) :
      Effect here [.receive call (.ok none)] { here with asking := none }
  /-- Something may still come, but the call does not wait any longer. -/
  | giveUp {call : Channel.Call} {returned : Except Channel.Timeout (Option α)}
      (asked : here.asking = some call) (empty : here.channel.queue.toList = [])
      (present : here.channel.sending = true)
      (nothing : returned = .error .timeout ∨ call = .tryRecv ∧ returned = .ok none) :
      Effect here [.receive call returned] { here with asking := none }
  | handOver {message : α} {call : Channel.Call} (offered : here.sending = some message)
      (asked : here.asking = some call) (empty : here.channel.queue.toList = [])
      (listening : here.channel.receiving = true) :
      Effect here [.send message (.ok ()), .receive call (.ok (some message))]
        ⟨{ here.channel with queue := .empty }, none, none⟩
  | closeSender (present : here.channel.sending = true) (idle : here.sending = none) :
      Effect here [.closeSender] { here with channel := here.channel.closeSender }
  | closeReceiver (present : here.channel.receiving = true) (idle : here.asking = none) :
      Effect here [.closeReceiver] { here with channel := here.channel.closeReceiver }

theorem Move.effect (move : Move here entries next) : Effect here entries next := by
  cases move with
  | offer message present idle => exact .offer message present idle
  | accept offered sent =>
    have room bound (bounded : here.channel.capacity = some bound) :=
      Channel.size_lt_of_accepted sent bounded
    obtain ⟨listening, rfl⟩ := Channel.of_accepted sent
    exact .accept offered listening room
  | refuse offered sent =>
    obtain rfl := Channel.eq_of_refused sent
    exact .refuse offered (Channel.of_refused sent)
  | ask call present idle => exact .ask call present idle
  | answer asked received returns =>
    rcases Channel.of_returns received returns with
      ⟨message, rfl, order, same⟩ | ⟨rfl, empty, closed, rfl⟩ | ⟨nothing, empty, present, rfl⟩
    · rw [same]
      exact .take asked order
    · exact .finish asked empty closed
    · exact .giveUp asked empty present nothing
  | handOver offered asked _ passed returns =>
    obtain ⟨empty, listening, rfl⟩ := Channel.of_pass passed
    obtain rfl := Option.some.inj returns
    exact .handOver offered asked empty listening
  | closeSender present idle => exact .closeSender present idle
  | closeReceiver present idle => exact .closeReceiver present idle

/-- Which ends of the channel are open, and that nothing is under way at the others. -/
structure Sides (history : List (Entry α)) (here : Transfer α) : Prop where
  sending : here.channel.sending = false ↔ .closeSender ∈ history
  receiving : here.channel.receiving = false ↔ .closeReceiver ∈ history
  resting : here.channel.sending = false → here.sending = none
  silent : here.channel.receiving = false → here.asking = none

theorem Sides.receiving_of_not_mem (sides : Sides history here)
    (unclosed : .closeReceiver ∉ history) : here.channel.receiving = true :=
  eq_true_of_ne_false (mt sides.receiving.mp unclosed)

theorem Sides.listening (sides : Sides history here) {call : Channel.Call}
    (asked : here.asking = some call) : here.channel.receiving = true :=
  eq_true_of_ne_false fun unheard => nomatch asked.symm.trans (sides.silent unheard)

namespace Effect

theorem sides (effect : Effect here entries next) (sides : Sides history here) :
    Sides (history ++ entries) next := by
  have sending := sides.sending
  have receiving := sides.receiving
  cases effect with
  | offer message present idle =>
    exact ⟨by simpa using sending, by simpa using receiving, by simp [present], sides.silent⟩
  | ask call present idle =>
    exact ⟨by simpa using sending, by simpa using receiving, sides.resting, by simp [present]⟩
  | accept | refuse =>
    exact ⟨by simpa using sending, by simpa using receiving, fun _ => rfl, sides.silent⟩
  | take | finish | giveUp =>
    exact ⟨by simpa using sending, by simpa using receiving, sides.resting, fun _ => rfl⟩
  | handOver =>
    exact ⟨by simpa using sending, by simpa using receiving, fun _ => rfl, fun _ => rfl⟩
  | closeSender present idle =>
    exact ⟨by simp [Channel.closeSender], by simpa [Channel.closeSender] using receiving,
      fun _ => idle, sides.silent⟩
  | closeReceiver present idle =>
    exact ⟨by simpa [Channel.closeReceiver] using sending, by simp [Channel.closeReceiver],
      sides.resting, fun _ => idle⟩

/-- An end that has been closed stays closed. -/
theorem sending_of_closed (effect : Effect here entries next)
    (closed : here.channel.sending = false) : next.channel.sending = false := by
  cases effect with
  | offer | accept | refuse | ask | take | finish | giveUp | handOver | closeReceiver =>
    exact closed
  | closeSender => rfl

theorem receiving_of_closed (effect : Effect here entries next)
    (closed : here.channel.receiving = false) : next.channel.receiving = false := by
  cases effect with
  | offer | accept | refuse | ask | take | finish | giveUp | handOver | closeSender =>
    exact closed
  | closeReceiver => rfl

theorem listening_of_next (effect : Effect here entries next)
    (listening : next.channel.receiving = true) : here.channel.receiving = true :=
  eq_true_of_ne_false fun closed => nomatch listening.symm.trans (effect.receiving_of_closed closed)

theorem capacity_eq (effect : Effect here entries next) :
    next.channel.capacity = here.channel.capacity := by
  cases effect with
  | offer | accept | refuse | ask | take | finish | giveUp | handOver | closeSender
    | closeReceiver => rfl

/-- A call that gives up has not received anything. -/
theorem received_of_nothing {call : Channel.Call} {returned : Except Channel.Timeout (Option α)}
    (nothing : returned = .error .timeout ∨ call = .tryRecv ∧ returned = .ok none) :
    received [.receive call returned] = [] := by
  rcases nothing with rfl | ⟨-, rfl⟩
  · rfl
  · rfl

/-- As long as somebody listens no message gets lost, and none comes from nowhere. -/
theorem queue (effect : Effect here entries next) (listening : next.channel.receiving = true) :
    here.channel.queue.toList ++ accepted entries =
      received entries ++ next.channel.queue.toList := by
  cases effect with
  | offer | refuse | ask | finish | closeSender => exact List.append_nil _
  | accept => exact (Queue.toList_push ..).symm
  | take _ order =>
    rw [order]
    exact List.append_nil _
  | giveUp _ _ _ nothing =>
    rw [received_of_nothing nothing]
    exact List.append_nil _
  | handOver _ _ empty =>
    rw [empty]
    rfl
  | closeReceiver => cases listening

/-- When nobody listens any more, nothing is accepted, and no call returns. -/
theorem unheard (effect : Effect here entries next) (sides : Sides history here)
    (unheard : next.channel.receiving = false) :
    accepted entries = [] ∧ received entries = [] ∧ answers entries = [] := by
  cases effect with
  | offer | refuse | ask | closeSender | closeReceiver => exact ⟨rfl, rfl, rfl⟩
  | accept _ listening | handOver _ _ _ listening => cases listening.symm.trans unheard
  | take asked | finish asked | giveUp asked => cases asked.symm.trans (sides.silent unheard)

theorem refused_of_listening (effect : Effect here entries next)
    (listening : next.channel.receiving = true) : refused entries = [] := by
  cases effect with
  | offer | accept | ask | take | finish | giveUp | handOver | closeSender | closeReceiver => rfl
  | refuse _ unheard => cases listening.symm.trans unheard

theorem offered_eq (effect : Effect here entries next) :
    offered entries = accepted entries ++ refused entries := by
  cases effect with
  | offer | accept | refuse | ask | take | finish | giveUp | handOver | closeSender
    | closeReceiver => rfl

/-- After the sender has closed nothing is sent. -/
theorem unsent (effect : Effect here entries next) (sides : Sides history here)
    (closed : here.channel.sending = false) :
    offered entries = [] ∧ accepted entries = [] ∧ refused entries = [] := by
  cases effect with
  | offer | ask | finish | closeSender | closeReceiver | take | giveUp => exact ⟨rfl, rfl, rfl⟩
  | accept offered | refuse offered | handOver offered =>
    cases offered.symm.trans (sides.resting closed)

/-- After the receiver has closed every send fails. -/
theorem send_of_closed (effect : Effect here entries next)
    (closed : here.channel.receiving = false) {message : α} {returned : Except α Unit}
    (sent : .send message returned ∈ entries) : returned = .error message := by
  cases effect with
  | offer | ask => cases sent
  | take | finish | giveUp | closeSender | closeReceiver => simp at sent
  | accept _ listening | handOver _ _ _ listening => cases listening.symm.trans closed
  | refuse =>
    obtain ⟨rfl, rfl⟩ : message = _ ∧ returned = _ := by simpa using sent
    rfl

theorem size_le (effect : Effect here entries next) {bound : Nat}
    (bounded : here.channel.capacity = some bound) (within : here.channel.queue.size ≤ bound) :
    next.channel.queue.size ≤ bound := by
  cases effect with
  | offer | refuse | ask | finish | giveUp | closeSender => exact within
  | accept _ _ room =>
    rw [← Queue.length_toList, Queue.toList_push, List.length_append, Queue.length_toList]
    exact room bound bounded
  | take _ order =>
    rw [← Queue.length_toList, order] at within
    rw [← Queue.length_toList]
    exact Nat.le_of_succ_le within
  | handOver | closeReceiver => exact Nat.zero_le _

/-- A send fails only if nobody listens, and hands back its own message. -/
theorem of_refused (effect : Effect here entries next) {message back : α}
    (failed : .send message (.error back) ∈ entries) :
    back = message ∧ here.channel.receiving = false := by
  cases effect with
  | offer | ask => cases failed
  | accept | take | finish | giveUp | handOver | closeSender | closeReceiver => simp at failed
  | refuse _ unheard =>
    obtain ⟨rfl, rfl⟩ : message = _ ∧ back = _ := by simpa using failed
    exact ⟨rfl, unheard⟩

/-- A call that waits finds the end of the stream only if the sender has closed and nothing is
left. -/
theorem of_ended (effect : Effect here entries next) {call : Channel.Call}
    (waits : call ≠ .tryRecv) (ended : .receive call (.ok none) ∈ entries) :
    here.channel.sending = false ∧ here.channel.queue.toList = [] ∧ here.asking = some call := by
  cases effect with
  | offer | ask => cases ended
  | accept | refuse | take | handOver | closeSender | closeReceiver => simp at ended
  | finish asked empty closed =>
    obtain rfl : call = _ := by simpa using ended
    exact ⟨closed, empty, asked⟩
  | giveUp _ _ _ nothing =>
    obtain ⟨rfl, rfl⟩ : call = _ ∧ _ = _ := by simpa using ended
    rcases nothing with other | ⟨other, -⟩
    · cases other
    · exact absurd other waits

end Effect

end Transfer
end Minicomputer
