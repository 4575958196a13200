import Mathlib.Data.Fintype.Basic
import Mathlib.Logic.Function.Basic
import Notus.Core.Machine
import Notus.Zephyr.Sync

/-! A publisher that waits for replies, on a channel whose subscribers answer in their own time. -/

namespace Notus.ZBusWrapperWithReply

/-- A message with the queue for its replies, and which successful send it was sent by. -/
structure SubscriberWithMsgQ (MessageType : Type*) where
  message : MessageType
  /-- Not part of the message, so no subscriber can look at it. -/
  round : Nat
  deriving DecidableEq

/-- What a subscriber answered, and which send the message it answered was sent by. -/
structure Reply (RetType : Type*) where
  ret : RetType
  /-- Not part of the reply, so the publisher cannot look at it. -/
  round : Nat
  deriving DecidableEq

/-- A reply that was returned, and the latest successful send at that time. -/
structure Returned (RetType : Type*) extends Reply RetType where
  latest : Nat
  deriving DecidableEq

/-- Where the publisher is: between calls, past the purge, or inside the publication. -/
inductive Publisher (MessageType : Type*) (subscribers : Nat) where
  | idle
  | purged (message : MessageType)
  | publishing (message : MessageType) (observers : List (Fin subscribers))
  deriving DecidableEq

/-- One publisher with its reply queue, and subscribers with a queue and one message at most. -/
structure World (MessageType RetType : Type*) {subscribers : Nat}
    (capacity : Fin subscribers → Nat) (msgqSize : Nat) where
  publisher : Publisher MessageType subscribers
  msgq : KMsgq (Reply RetType) msgqSize
  inbox : (subscriber : Fin subscribers) →
    KMsgq (SubscriberWithMsgQ MessageType) (capacity subscriber)
  hand : Fin subscribers → Option (SubscriberWithMsgQ MessageType)
  /-- The messages of the successful sends, in order. -/
  sent : List MessageType
  /-- The replies that were returned, in order. -/
  returned : List (Returned RetType)

/-- One atomic step of the publisher, the channel or a subscriber. -/
inductive Action (MessageType RetType : Type*) (subscribers : Nat) where
  /-- A send begins by dropping all replies. -/
  | purge (message : MessageType)
  /-- The channel could not be claimed in time, and the send fails. -/
  | publishFails
  | publish
  /-- The listener of the next observer copies the message into its queue. -/
  | listen
  | finish
  | take (subscriber : Fin subscribers)
  | setReply (subscriber : Fin subscribers) (ret : RetType)
  | getReply
  /-- No reply came in time. -/
  | timeout
  deriving DecidableEq

namespace World

variable {MessageType RetType : Type*} {subscribers : Nat} {capacity : Fin subscribers → Nat}
  {msgqSize : Nat}

/-- Before the first send, all queues are empty. -/
def initial (capacity : Fin subscribers → Nat) (msgqSize : Nat) :
    World MessageType RetType capacity msgqSize :=
  { publisher := .idle
    msgq := .empty
    inbox := fun _ => .empty
    hand := fun _ => none
    sent := []
    returned := [] }

/-- The publication begins, and with it the send is the latest successful one. -/
def publish (world : World MessageType RetType capacity msgqSize) (message : MessageType) :
    World MessageType RetType capacity msgqSize :=
  -- The channel is claimed, and its listeners are called in the order they were added in.
  { world with
    publisher := .publishing message (List.finRange subscribers)
    sent := world.sent ++ [message] }

/-- A listener puts the message into its queue without waiting, whether or not there is room. -/
def listen (world : World MessageType RetType capacity msgqSize) (message : MessageType)
    (subscriber : Fin subscribers) (observers : List (Fin subscribers)) :
    World MessageType RetType capacity msgqSize :=
  -- A listener whose queue is full loses the message, and the publication goes on.
  { world with
    publisher := .publishing message observers
    inbox := Function.update world.inbox subscriber
      (kMsgqPut (world.inbox subscriber) { message := message, round := world.sent.length }).1 }

/-- A subscriber has taken the first message out of its queue. -/
def take (world : World MessageType RetType capacity msgqSize) (subscriber : Fin subscribers)
    (message : SubscriberWithMsgQ MessageType)
    (rest : KMsgq (SubscriberWithMsgQ MessageType) (capacity subscriber)) :
    World MessageType RetType capacity msgqSize :=
  -- A subscriber handles one message at a time.
  { world with
    inbox := Function.update world.inbox subscriber rest
    hand := Function.update world.hand subscriber (some message) }

/-- A subscriber answers the message in its hand without waiting, and is done with it. -/
def setReply (world : World MessageType RetType capacity msgqSize) (subscriber : Fin subscribers)
    (message : SubscriberWithMsgQ MessageType) (ret : RetType) :
    World MessageType RetType capacity msgqSize :=
  -- The reply goes to the queue of the publisher, whatever the publisher is doing.
  { world with
    msgq := (kMsgqPut world.msgq { ret := ret, round := message.round }).1
    hand := Function.update world.hand subscriber none }

/-- The publisher returns the first reply in its queue. -/
def getReply (world : World MessageType RetType capacity msgqSize) (reply : Reply RetType)
    (rest : KMsgq (Reply RetType) msgqSize) : World MessageType RetType capacity msgqSize :=
  -- Nothing in a reply says which message it answers.
  { world with
    msgq := rest
    returned := world.returned ++ [{ reply with latest := world.sent.length }] }

/-- One action, refused where it would wait or is not the publisher's next. -/
def step : Machine (World MessageType RetType capacity msgqSize)
    (Action MessageType RetType subscribers) := fun world action =>
  match action with
  | .purge message =>
    match world.publisher with
    | .idle => some { world with publisher := .purged message, msgq := kMsgqPurge world.msgq }
    | _ => none
  -- The replies were dropped already, and no listener is called.
  | .publishFails =>
    match world.publisher with
    | .purged _ => some { world with publisher := .idle }
    | _ => none
  | .publish =>
    match world.publisher with
    | .purged message => some (world.publish message)
    | _ => none
  | .listen =>
    match world.publisher with
    | .publishing message (subscriber :: observers) =>
      some (world.listen message subscriber observers)
    | _ => none
  -- After the last listener the send returns with success.
  | .finish =>
    match world.publisher with
    | .publishing _ [] => some { world with publisher := .idle }
    | _ => none
  | .take subscriber =>
    match world.hand subscriber, (world.inbox subscriber).get with
    | none, some (message, rest) => some (world.take subscriber message rest)
    | _, _ => none
  | .setReply subscriber ret =>
    match world.hand subscriber with
    | some message => some (world.setReply subscriber message ret)
    | none => none
  | .getReply =>
    match world.publisher, world.msgq.get with
    | .idle, some (reply, rest) => some (world.getReply reply rest)
    | _, _ => none
  -- The publisher waits for a reply, and gives up only when there is none.
  | .timeout =>
    match world.publisher, world.msgq.get with
    | .idle, none => some world
    | _, _ => none

/-- The publisher purges only between calls. -/
theorem step_purge {world next : World MessageType RetType capacity msgqSize}
    {message : MessageType} :
    step world (.purge message) = some next ↔ world.publisher = .idle ∧
      next = { world with publisher := .purged message, msgq := .empty } := by
  -- The publisher is one thread, so its calls do not overlap.
  simp only [step]
  cases publisher : world.publisher <;> simp [kMsgqPurge, eq_comm]

/-- A send fails only before the publication. -/
theorem step_publishFails {world next : World MessageType RetType capacity msgqSize} :
    step world .publishFails = some next ↔
      ∃ message, world.publisher = .purged message ∧ next = { world with publisher := .idle } := by
  -- The purge comes first in every send.
  simp only [step]
  cases publisher : world.publisher <;> simp [eq_comm]

/-- A publication begins after the purge. -/
theorem step_publish {world next : World MessageType RetType capacity msgqSize} :
    step world .publish = some next ↔
      ∃ message, world.publisher = .purged message ∧ next = world.publish message := by
  -- The message was fixed when the send began.
  simp only [step]
  cases publisher : world.publisher <;> simp [eq_comm]

/-- The listeners are called one after the other. -/
theorem step_listen {world next : World MessageType RetType capacity msgqSize} :
    step world .listen = some next ↔
      ∃ message subscriber observers,
        world.publisher = .publishing message (subscriber :: observers) ∧
          next = world.listen message subscriber observers := by
  -- The channel stays claimed until all listeners were called.
  simp only [step]
  split <;> simp_all [eq_comm]

/-- A publication ends when all listeners were called. -/
theorem step_finish {world next : World MessageType RetType capacity msgqSize} :
    step world .finish = some next ↔
      ∃ message, world.publisher = .publishing message [] ∧
        next = { world with publisher := .idle } := by
  -- No listener is left to call.
  simp only [step]
  split <;> simp_all [eq_comm]

/-- A subscriber with an empty hand takes the first message of its queue. -/
theorem step_take {world next : World MessageType RetType capacity msgqSize}
    {subscriber : Fin subscribers} :
    step world (.take subscriber) = some next ↔
      world.hand subscriber = none ∧ ∃ message rest,
        (world.inbox subscriber).get = some (message, rest) ∧
          next = world.take subscriber message rest := by
  -- Both the hand and the queue of the subscriber are looked at.
  simp only [step]
  cases hand : world.hand subscriber <;> cases got : (world.inbox subscriber).get <;>
    simp [Prod.ext_iff, eq_comm]

/-- A subscriber answers the message in its hand. -/
theorem step_setReply {world next : World MessageType RetType capacity msgqSize}
    {subscriber : Fin subscribers} {ret : RetType} :
    step world (.setReply subscriber ret) = some next ↔
      ∃ message, world.hand subscriber = some message ∧
        next = world.setReply subscriber message ret := by
  -- Without a message in the hand there is no queue to reply to.
  simp only [step]
  cases hand : world.hand subscriber <;> simp [eq_comm]

/-- The publisher returns a reply between sends. -/
theorem step_getReply {world next : World MessageType RetType capacity msgqSize} :
    step world .getReply = some next ↔
      world.publisher = .idle ∧ ∃ reply rest, world.msgq.get = some (reply, rest) ∧
        next = world.getReply reply rest := by
  -- A send and a wait for a reply do not overlap.
  simp only [step]
  cases publisher : world.publisher <;> cases got : world.msgq.get <;>
    simp [Prod.ext_iff, eq_comm]

/-- Waiting in vain changes nothing. -/
theorem step_timeout {world next : World MessageType RetType capacity msgqSize} :
    step world .timeout = some next ↔
      world.publisher = .idle ∧ world.msgq.get = none ∧ next = world := by
  -- A wait ends either with a reply or with nothing.
  simp only [step]
  cases publisher : world.publisher <;> cases got : world.msgq.get <;> simp [eq_comm]

end World
end Notus.ZBusWrapperWithReply
