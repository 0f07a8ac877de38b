/-!
# Channels

A channel carries messages from one sender to one receiver, first in, first out.  Either side may
close, and the other side notices: a message sent to a closed receiver is handed back, and a
receiver whose sender has closed gets what was sent before and then the end of the stream.

A channel may be bounded.  A send to a full channel has to wait, and a channel that holds nothing at
all passes a message only from hand to hand, when both sides are there (`Channel.pass`).

Waiting itself is not modelled.  An operation that would have to wait says so and changes nothing;
what the other side does in the meantime is a matter of who runs the two sides.
-/

namespace Minicomputer

/-! ## Queues -/

/-- Messages in the order of their arrival.  The older ones are in `front`, the oldest first; the
newer ones are in `back`, the newest first. -/
structure Queue (α : Type) where
  front : List α
  back : List α
  deriving Repr

namespace Queue

variable {α : Type}

def empty : Queue α :=
  ⟨[], []⟩

/-- The messages, the oldest first. -/
def toList (queue : Queue α) : List α :=
  queue.front ++ queue.back.reverse

def size (queue : Queue α) : Nat :=
  queue.front.length + queue.back.length

def push (queue : Queue α) (message : α) : Queue α :=
  ⟨queue.front, message :: queue.back⟩

def pop? (queue : Queue α) : Option (α × Queue α) :=
  match queue.front with
  | message :: front => some (message, ⟨front, queue.back⟩)
  | [] =>
    match queue.back.reverse with
    | message :: front => some (message, ⟨front, []⟩)
    | [] => none

@[simp] theorem toList_empty : (empty : Queue α).toList = [] :=
  rfl

@[simp] theorem length_toList (queue : Queue α) : queue.toList.length = queue.size := by
  simp [toList, size]

@[simp] theorem toList_push (queue : Queue α) (message : α) :
    (queue.push message).toList = queue.toList ++ [message] := by
  simp [toList, push]

theorem pop?_eq_none_iff {queue : Queue α} : queue.pop? = none ↔ queue.toList = [] := by
  obtain ⟨front, back⟩ := queue
  cases front with
  | nil =>
    simp only [pop?, toList, List.nil_append]
    cases back.reverse with
    | nil => simp
    | cons message rest => simp
  | cons message rest => simp [pop?, toList]

theorem toList_of_pop? {queue rest : Queue α} {message : α}
    (h : queue.pop? = some (message, rest)) : queue.toList = message :: rest.toList := by
  obtain ⟨front, back⟩ := queue
  cases front with
  | nil =>
    simp only [pop?, toList, List.nil_append] at h ⊢
    cases order : back.reverse with
    | nil => simp [order] at h
    | cons oldest others =>
      simp only [order, Option.some.injEq, Prod.mk.injEq] at h
      obtain ⟨rfl, rfl⟩ := h
      simp
  | cons oldest others =>
    simp only [pop?, Option.some.injEq, Prod.mk.injEq] at h
    obtain ⟨rfl, rfl⟩ := h
    simp [toList]

end Queue

/-! ## Channels -/

/-- The messages on their way, and which sides are still there. -/
structure Channel (α : Type) where
  capacity : Option Nat
  queue : Queue α
  sending : Bool
  receiving : Bool
  deriving Repr

/-- What becomes of a message that is sent. -/
inductive Sent (α : Type) where
  /-- It is in the channel. -/
  | accepted (channel : Channel α)
  /-- The channel is full, so the sender has to wait. -/
  | waiting
  /-- The receiver is gone; the sender keeps the message. -/
  | refused (message : α)

/-- What a receiver gets. -/
inductive Received (α : Type) where
  | message (message : α)
  /-- There is no message, but the sender may still send one. -/
  | nothing
  /-- There is no message and there will be none. -/
  | ended
  deriving DecidableEq, Repr

namespace Channel

variable {α : Type}

def fresh (capacity : Option Nat) : Channel α :=
  ⟨capacity, .empty, true, true⟩

def closed : Channel α :=
  ⟨none, .empty, false, false⟩

/-- Whether a message that is sent now has to wait. -/
def isFull (channel : Channel α) : Bool :=
  match channel.capacity with
  | none => false
  | some capacity => capacity ≤ channel.queue.size

def send (channel : Channel α) (message : α) : Sent α :=
  if !channel.receiving then .refused message
  else if channel.isFull then .waiting
  else .accepted { channel with queue := channel.queue.push message }

def receive (channel : Channel α) : Received α × Channel α :=
  match channel.queue.pop? with
  | some (message, queue) => (.message message, { channel with queue })
  | none => (if channel.sending then .nothing else .ended, channel)

def drain (channel : Channel α) : List α × Channel α :=
  (channel.queue.toList, { channel with queue := .empty })

/-- Ends the stream.  What was sent stays in the channel. -/
def closeSender (channel : Channel α) : Channel α :=
  { channel with sending := false }

/-- Gives up receiving, together with whatever was still on its way. -/
def closeReceiver (channel : Channel α) : Channel α :=
  { channel with queue := .empty, receiving := false }

/-! ## Calls of a receiver -/

/-- A call has waited long enough, and the stream is still open. -/
inductive Timeout where
  | timeout
  deriving DecidableEq, Repr

/-- How a receiver asks for a message. -/
inductive Call where
  /-- It waits until there is one. -/
  | recv
  /-- It goes on with an iteration, which waits as well. -/
  | next
  /-- It does not wait. -/
  | tryRecv
  /-- It waits for some time. -/
  | recvTimeout
  deriving DecidableEq, Repr

/-- What a call returns, unless it goes on waiting.  No message stands for the end of the stream; if
the call does not wait, it also stands for a message that may still come. -/
def Call.returns : Call → Received α → Option (Except Timeout (Option α))
  | _, .message message => some (.ok (some message))
  | _, .ended => some (.ok none)
  | .recv, .nothing | .next, .nothing => none
  | .tryRecv, .nothing => some (.ok none)
  | .recvTimeout, .nothing => some (.error .timeout)

/-! ## A sender and a receiver together -/

structure Relay (α : Type) where
  received : List α
  refused : Nat
  deriving DecidableEq, Repr

/-- Passes a message from hand to hand: the receiver takes it as soon as it is sent, so it needs no
room in the channel.  If the receiver is gone the sender keeps the message. -/
def pass (channel : Channel α) (message : α) : Option (List α × Channel α) :=
  if channel.receiving then
    some (({ channel with queue := channel.queue.push message } : Channel α).drain)
  else none

/-- The receiver closes when it has all the messages it wants. -/
def closeIfSatisfied (channel : Channel α) (wanted : Option Nat) (received : List α) : Channel α :=
  if wanted = some received.length then channel.closeReceiver else channel

/-- One side sends the messages in turn while the other takes each at once, until it has as many as
it wants. -/
def relayFrom (channel : Channel α) (wanted : Option Nat) (relay : Relay α) : List α → Relay α
  | [] => relay
  | message :: messages =>
    match channel.pass message with
    | none => relayFrom channel wanted { relay with refused := relay.refused + 1 } messages
    | some (taken, channel) =>
      let received := relay.received ++ taken
      relayFrom (channel.closeIfSatisfied wanted received) wanted { relay with received } messages

/-- Sends messages through a fresh channel to a receiver that wants some or all of them. -/
def relay (capacity : Option Nat) (wanted : Option Nat) (messages : List α) : Relay α :=
  ((fresh capacity : Channel α).closeIfSatisfied wanted []).relayFrom wanted ⟨[], 0⟩ messages

end Channel
end Minicomputer
