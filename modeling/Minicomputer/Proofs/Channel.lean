import Minicomputer.Channel

/-!
# Channels, operation by operation

When an operation of a channel succeeds, when it finds the other side gone, and what it leaves
behind in either case.  An operation for which none of this holds has to wait.  At the end stands
what becomes of a list of messages that are sent in turn.
-/

namespace Minicomputer
namespace Channel

variable {α : Type} {channel channel' : Channel α} {message : α}

/-! ## When an operation succeeds -/

theorem send_of_gone (gone : channel.receiving = false) :
    channel.send message = .refused message := by
  simp [send, gone]

theorem send_of_room (listening : channel.receiving = true) (room : channel.isFull = false) :
    channel.send message = .accepted { channel with queue := channel.queue.push message } := by
  simp [send, listening, room]

theorem receive_of_pop {pair : α × Queue α} (popped : channel.queue.pop? = some pair) :
    channel.receive = (.message pair.1, { channel with queue := pair.2 }) := by
  rw [receive, popped]

theorem receive_of_gone (empty : channel.queue.pop? = none) (gone : channel.sending = false) :
    channel.receive = (.ended, channel) := by
  simp [receive, empty, gone]

theorem pass_of_empty (listening : channel.receiving = true) (empty : channel.queue.toList = []) :
    channel.pass message = some ([message], { channel with queue := .empty }) := by
  simp [pass, drain, listening, empty]

theorem capacity_of_isFull (full : channel.isFull = true) (empty : channel.queue.toList = []) :
    channel.capacity = some 0 := by
  unfold isFull at full
  have size : channel.queue.size = 0 := by
    rw [← Queue.length_toList, empty]
    rfl
  cases capacity : channel.capacity with
  | none =>
    rw [capacity] at full
    cases full
  | some bound =>
    rw [capacity, size] at full
    exact congrArg some (Nat.le_zero.mp (of_decide_eq_true full))

/-! ## What an operation has found and left -/

theorem of_accepted (sent : channel.send message = .accepted channel') :
    channel.receiving = true ∧ channel' = { channel with queue := channel.queue.push message } := by
  unfold send at sent
  split at sent
  next => cases sent
  next listening =>
    split at sent
    next => cases sent
    next =>
      cases sent
      exact ⟨by simpa using listening, rfl⟩

theorem of_refused (sent : channel.send message = .refused message) :
    channel.receiving = false := by
  unfold send at sent
  split at sent
  next gone => simpa using gone
  next =>
    split at sent
    · cases sent
    · cases sent

theorem eq_of_refused {back : α} (sent : channel.send message = .refused back) :
    back = message := by
  unfold send at sent
  split at sent
  next => exact (Sent.refused.inj sent).symm
  next =>
    split at sent
    · cases sent
    · cases sent

theorem size_lt_of_accepted {bound : Nat} (sent : channel.send message = .accepted channel')
    (bounded : channel.capacity = some bound) : channel.queue.size < bound := by
  have room : channel.isFull = false := by
    unfold send at sent
    split at sent
    next => cases sent
    next =>
      split at sent
      next => cases sent
      next room => simpa using room
  simpa [isFull, bounded] using room

theorem of_message (received : channel.receive = (.message message, channel')) :
    channel.queue.toList = message :: channel'.queue.toList ∧
      channel' = { channel with queue := channel'.queue } := by
  unfold receive at received
  split at received
  next popped =>
    cases received
    exact ⟨Queue.toList_of_pop? popped, rfl⟩
  next =>
    split at received
    · cases received
    · cases received

theorem of_ended (received : channel.receive = (.ended, channel')) :
    channel.queue.toList = [] ∧ channel.sending = false ∧ channel' = channel := by
  unfold receive at received
  split at received
  next => cases received
  next popped =>
    split at received
    next => cases received
    next gone =>
      cases received
      exact ⟨Queue.pop?_eq_none_iff.mp popped, by simpa using gone, rfl⟩

theorem of_nothing (received : channel.receive = (.nothing, channel')) :
    channel.queue.toList = [] ∧ channel.sending = true ∧ channel' = channel := by
  unfold receive at received
  split at received
  next => cases received
  next popped =>
    split at received
    next present =>
      cases received
      exact ⟨Queue.pop?_eq_none_iff.mp popped, present, rfl⟩
    next => cases received

/-- What a call that has returned has found: a message, the end of the stream, or an empty channel
that it has not waited at any longer. -/
theorem of_returns {call : Call} {result : Received α} {returned : Except Timeout (Option α)}
    (received : channel.receive = (result, channel'))
    (returns : call.returns result = some returned) :
    (∃ message, returned = .ok (some message) ∧
        channel.queue.toList = message :: channel'.queue.toList ∧
        channel' = { channel with queue := channel'.queue }) ∨
      (returned = .ok none ∧ channel.queue.toList = [] ∧ channel.sending = false ∧
        channel' = channel) ∨
      ((returned = .error .timeout ∨ call = .tryRecv ∧ returned = .ok none) ∧
        channel.queue.toList = [] ∧ channel.sending = true ∧ channel' = channel) := by
  cases result with
  | message message =>
    cases returns
    exact .inl ⟨message, rfl, of_message received⟩
  | ended =>
    cases returns
    exact .inr (.inl ⟨rfl, of_ended received⟩)
  | nothing =>
    refine .inr (.inr ⟨?_, of_nothing received⟩)
    cases call with
    | recv | next => cases returns
    | tryRecv =>
      cases returns
      exact .inr ⟨rfl, rfl⟩
    | recvTimeout =>
      cases returns
      exact .inl rfl

theorem of_pass (passed : channel.pass message = some ([message], channel')) :
    channel.queue.toList = [] ∧ channel.receiving = true ∧
      channel' = { channel with queue := .empty } := by
  unfold pass at passed
  split at passed
  next listening =>
    simp only [drain, Option.some.injEq, Prod.mk.injEq, Queue.toList_push] at passed
    obtain ⟨all, rfl⟩ := passed
    exact ⟨by simpa using all, listening, rfl⟩
  next => cases passed

/-! ## The messages of a list in turn -/

/-- A receiver that is gone does not come back, so everything is refused. -/
theorem relayFrom_of_gone (gone : channel.receiving = false) (wanted : Option Nat)
    (relay : Relay α) (messages : List α) :
    channel.relayFrom wanted relay messages =
      ⟨relay.received, relay.refused + messages.length⟩ := by
  induction messages generalizing relay with
  | nil => rfl
  | cons message messages ih =>
    have refused : channel.pass message = none := by simp [pass, gone]
    rw [relayFrom, refused, ih, List.length_cons, Nat.add_assoc, Nat.add_comm 1]

theorem relayFrom_cons (listening : channel.receiving = true) (empty : channel.queue.toList = [])
    (wanted : Option Nat) (relay : Relay α) (messages : List α) :
    channel.relayFrom wanted relay (message :: messages) =
      (({ channel with queue := .empty } : Channel α).closeIfSatisfied wanted
        (relay.received ++ [message])).relayFrom wanted
          { relay with received := relay.received ++ [message] } messages := by
  rw [relayFrom, pass_of_empty listening empty]

theorem relayFrom_none (listening : channel.receiving = true) (empty : channel.queue.toList = [])
    (relay : Relay α) (messages : List α) :
    channel.relayFrom none relay messages = ⟨relay.received ++ messages, relay.refused⟩ := by
  induction messages generalizing channel relay with
  | nil => simp [relayFrom]
  | cons message messages ih =>
    rw [relayFrom_cons listening empty, closeIfSatisfied, if_neg nofun]
    refine (ih ?_ rfl _).trans ?_
    · exact listening
    · rw [List.append_assoc]
      rfl

/-- A receiver that wants some of the messages gets the first ones, and the others are refused. -/
theorem relayFrom_some {wanted : Nat} (listening : channel.receiving = true)
    (empty : channel.queue.toList = []) (relay : Relay α) (messages : List α)
    (unsatisfied : relay.received.length < wanted) :
    channel.relayFrom (some wanted) relay messages =
      ⟨relay.received ++ messages.take (wanted - relay.received.length),
        relay.refused + (messages.length - (wanted - relay.received.length))⟩ := by
  induction messages generalizing channel relay with
  | nil => simp [relayFrom]
  | cons message messages ih =>
    have length_eq : (relay.received ++ [message]).length = relay.received.length + 1 := by simp
    rw [relayFrom_cons listening empty, closeIfSatisfied]
    by_cases satisfied : wanted = relay.received.length + 1
    · have one : wanted - relay.received.length = 1 := by omega
      rw [if_pos (by rw [satisfied, length_eq]), relayFrom_of_gone rfl, one]
      simp
    · obtain ⟨more, missing⟩ : ∃ more, wanted - relay.received.length = more + 1 :=
        ⟨wanted - relay.received.length - 1, by omega⟩
      have fewer : wanted - (relay.received.length + 1) = more := by omega
      rw [if_neg (by simpa using satisfied), missing]
      refine (ih ?_ rfl _ ?_).trans ?_
      · exact listening
      · rw [length_eq]
        omega
      · simp [fewer]

theorem relay_none (capacity : Option Nat) (messages : List α) :
    relay capacity none messages = ⟨messages, 0⟩ :=
  relayFrom_none rfl rfl ⟨[], 0⟩ messages

theorem relay_some (capacity : Option Nat) (wanted : Nat) (messages : List α) :
    relay capacity (some wanted) messages =
      ⟨messages.take wanted, messages.length - wanted⟩ := by
  cases wanted with
  | zero =>
    refine (relayFrom_of_gone rfl (some 0) ⟨[], 0⟩ messages).trans ?_
    simp
  | succ wanted =>
    refine (relayFrom_some rfl rfl ⟨[], 0⟩ messages (Nat.succ_pos wanted)).trans ?_
    simp

end Channel
end Minicomputer
