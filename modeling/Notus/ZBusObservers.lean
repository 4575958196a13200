import Mathlib.Data.List.Nodup
import Notus.Core.Machine
import Notus.Zephyr.Sync

/-! A channel with three kinds of observers, each of which gets to its messages in its own way. -/

namespace Notus.ZBusObservers

/-- The observers of the channel: one is called, one is told, and one is handed a copy. -/
inductive Observer where
  | listener
  | subscriber
  | msgSubscriber
  deriving DecidableEq, Repr

/-- A reference to the channel that waits to be read. -/
structure Notification where
  /-- Not part of the reference: which publication the subscriber is told of. -/
  told : Nat
  deriving DecidableEq, Repr

/-- What the subscriber found in the channel, or that it could not claim the channel in time. -/
inductive Outcome (Message : Type*) where
  /-- Not part of what is read: the number of the publication the message is of. -/
  | read (message : Message) (number : Nat)
  | timedOut
  deriving DecidableEq, Repr

/-- A line of the subscriber, which does not look at whether the message could be read. -/
structure Line (Message : Type*) where
  notification : Notification
  outcome : Outcome Message
  deriving DecidableEq, Repr

/-- The channel with its observers, their queues, and what their tasks have logged. -/
structure World (Message : Type*) where
  chan : Message
  /-- The observers that are still to be notified, while the channel is claimed. -/
  publishing : Option (List Observer)
  accMsgq : KMsgq Message 10
  subQueue : KMsgq Notification 4
  msgFifo : List Message
  /-- The notification that the subscriber has taken and not yet followed. -/
  wanted : Option Notification
  /-- All messages that were put into the channel, in order. -/
  published : List Message
  fromQueue : List Message
  fromSubscriber : List (Line Message)
  fromMsgSubscriber : List Message

/-- One atomic step of a publication or of an observer's task. -/
inductive Action (Message : Type*) where
  /-- A publication claims the channel and puts its message into it. -/
  | claim (message : Message)
  /-- The next observer is notified. -/
  | notify
  /-- The queue of the subscriber has no room until the time is over. -/
  | giveUp
  /-- The publication fails, and leaves out the observers that are left. -/
  | cutShort
  | release
  | listenerTask
  | msgSubTask
  | subWait
  | subRead
  /-- The channel stays claimed until the time of the read is over. -/
  | subReadTimesOut
  deriving DecidableEq, Repr

namespace World

variable {Message : Type*}

/-- At the start the channel holds its initial message, and nobody was told of it. -/
def initial (message : Message) : World Message :=
  { chan := message
    publishing := none
    accMsgq := .empty
    subQueue := .empty
    msgFifo := []
    wanted := none
    published := []
    fromQueue := []
    fromSubscriber := []
    fromMsgSubscriber := [] }

/-- One observer is notified, if it can be without waiting. -/
def notified (world : World Message) (observers : List Observer) :
    Observer → Option (World Message)
  -- The listener is called, and copies the message into its queue without waiting.
  | .listener => some
      { world with
        publishing := some observers
        accMsgq := (kMsgqPut world.accMsgq world.chan).1 }
  -- The subscriber is told where to read, and not what.
  | .subscriber =>
    (world.subQueue.put ⟨world.published.length⟩).map fun subQueue =>
      { world with publishing := some observers, subQueue := subQueue }
  | .msgSubscriber => some
      { world with publishing := some observers, msgFifo := world.msgFifo ++ [world.chan] }

/-- One action, refused where it would wait or where it is nobody's turn. -/
def step (order : List Observer) : Machine (World Message) (Action Message) := fun world action =>
  match action with
  | .claim message =>
    match world.publishing with
    | none => some
        { world with
          chan := message
          publishing := some order
          published := world.published ++ [message] }
    | some _ => none
  | .notify =>
    match world.publishing with
    | some (observer :: observers) => world.notified observers observer
    | _ => none
  | .giveUp =>
    match world.publishing with
    | some (.subscriber :: observers) =>
      -- With room in the queue there is nothing to wait for.
      if world.subQueue.items.length = 4 then
        some { world with publishing := some observers }
      else none
    | _ => none
  | .cutShort =>
    match world.publishing with
    | some _ => some { world with publishing := none }
    | none => none
  | .release =>
    match world.publishing with
    | some [] => some { world with publishing := none }
    | _ => none
  | .listenerTask =>
    match world.accMsgq.get with
    | some (acc, rest) => some
        { world with accMsgq := rest, fromQueue := world.fromQueue ++ [acc] }
    | none => none
  | .msgSubTask =>
    match world.msgFifo with
    | acc :: rest => some
        { world with msgFifo := rest, fromMsgSubscriber := world.fromMsgSubscriber ++ [acc] }
    | [] => none
  | .subWait =>
    match world.wanted, world.subQueue.get with
    | none, some (notification, rest) => some
        { world with wanted := some notification, subQueue := rest }
    | _, _ => none
  | .subRead =>
    match world.wanted, world.publishing with
    | some notification, none =>
      let line := ⟨notification, .read world.chan world.published.length⟩
      some { world with wanted := none, fromSubscriber := world.fromSubscriber ++ [line] }
    | _, _ => none
  -- What is logged then was never written by anyone.
  | .subReadTimesOut =>
    match world.wanted, world.publishing with
    | some notification, some _ =>
      let line := ⟨notification, .timedOut⟩
      some { world with wanted := none, fromSubscriber := world.fromSubscriber ++ [line] }
    | _, _ => none

/-- What a step does, by the action and by whose turn it is. -/
inductive Step (order : List Observer) (world : World Message) :
    Action Message → World Message → Prop where
  | claim (message : Message) (free : world.publishing = none) :
      Step order world (.claim message)
        { world with
          chan := message
          publishing := some order
          published := world.published ++ [message] }
  | callListener {observers : List Observer}
      (turn : world.publishing = some (.listener :: observers)) :
      Step order world .notify
        { world with
          publishing := some observers
          accMsgq := (kMsgqPut world.accMsgq world.chan).1 }
  | tellSubscriber {observers : List Observer} {subQueue : KMsgq Notification 4}
      (turn : world.publishing = some (.subscriber :: observers))
      (room : subQueue.items = world.subQueue.items ++ [⟨world.published.length⟩]) :
      Step order world .notify
        { world with publishing := some observers, subQueue := subQueue }
  | handMsgSubscriber {observers : List Observer}
      (turn : world.publishing = some (.msgSubscriber :: observers)) :
      Step order world .notify
        { world with publishing := some observers, msgFifo := world.msgFifo ++ [world.chan] }
  | giveUp {observers : List Observer}
      (turn : world.publishing = some (.subscriber :: observers))
      (full : world.subQueue.items.length = 4) :
      Step order world .giveUp { world with publishing := some observers }
  | cutShort {observers : List Observer} (turn : world.publishing = some observers) :
      Step order world .cutShort { world with publishing := none }
  | release (turn : world.publishing = some []) :
      Step order world .release { world with publishing := none }
  | listenerTask {acc : Message} {rest : KMsgq Message 10}
      (first : world.accMsgq.items = acc :: rest.items) :
      Step order world .listenerTask
        { world with accMsgq := rest, fromQueue := world.fromQueue ++ [acc] }
  | msgSubTask {acc : Message} {rest : List Message} (first : world.msgFifo = acc :: rest) :
      Step order world .msgSubTask
        { world with msgFifo := rest, fromMsgSubscriber := world.fromMsgSubscriber ++ [acc] }
  | subWait {notification : Notification} {rest : KMsgq Notification 4}
      (idle : world.wanted = none) (first : world.subQueue.items = notification :: rest.items) :
      Step order world .subWait { world with wanted := some notification, subQueue := rest }
  | subRead {notification : Notification} (wants : world.wanted = some notification)
      (free : world.publishing = none) :
      Step order world .subRead
        { world with
          wanted := none
          fromSubscriber := world.fromSubscriber ++
            [⟨notification, .read world.chan world.published.length⟩] }
  | subReadTimesOut {notification : Notification} {observers : List Observer}
      (wants : world.wanted = some notification) (turn : world.publishing = some observers) :
      Step order world .subReadTimesOut
        { world with
          wanted := none
          fromSubscriber := world.fromSubscriber ++ [⟨notification, .timedOut⟩] }

/-- Every step that is taken is one of these. -/
theorem step_sound {order : List Observer} {world next : World Message} {action : Action Message}
    (stepped : step order world action = some next) : Step order world action next := by
  cases action with
  | claim message =>
    simp only [step] at stepped
    split at stepped <;> cases stepped
    exact .claim message ‹_›
  | notify =>
    simp only [step] at stepped
    split at stepped
    case h_1 observer observers turn =>
      -- The turn is that of the first observer that is left.
      cases observer with
      | listener => cases stepped; exact .callListener turn
      | subscriber =>
        obtain ⟨subQueue, stored, rfl⟩ := Option.map_eq_some_iff.mp stepped
        exact .tellSubscriber turn (Bounded.put_eq_some.mp stored).2
      | msgSubscriber => cases stepped; exact .handMsgSubscriber turn
    case h_2 => cases stepped
  | giveUp =>
    simp only [step] at stepped
    split at stepped
    case h_1 observers turn =>
      split at stepped <;> cases stepped
      exact .giveUp turn ‹_›
    case h_2 => cases stepped
  | cutShort =>
    simp only [step] at stepped
    split at stepped <;> cases stepped
    exact .cutShort ‹_›
  | release =>
    simp only [step] at stepped
    split at stepped <;> cases stepped
    exact .release ‹_›
  | listenerTask =>
    simp only [step] at stepped
    split at stepped <;> cases stepped
    exact .listenerTask (Bounded.get_eq_some.mp ‹_›)
  | msgSubTask =>
    simp only [step] at stepped
    split at stepped <;> cases stepped
    exact .msgSubTask ‹_›
  | subWait =>
    simp only [step] at stepped
    split at stepped <;> cases stepped
    exact .subWait ‹_› (Bounded.get_eq_some.mp ‹_›)
  | subRead =>
    simp only [step] at stepped
    split at stepped <;> cases stepped
    exact .subRead ‹_› ‹_›
  | subReadTimesOut =>
    simp only [step] at stepped
    split at stepped <;> cases stepped
    exact .subReadTimesOut ‹_› ‹_›

/-- An observer is still to be notified of the publication that is under way. -/
def Awaits (world : World Message) (observer : Observer) : Prop :=
  ∃ observers, world.publishing = some observers ∧ observer ∈ observers

/-- The observers that are awaited are those left in the publication. -/
theorem awaits_iff {world : World Message} {observer : Observer} :
    observer ∈ world.publishing.getD [] ↔ world.Awaits observer := by
  -- Without a publication nobody is awaited.
  unfold Awaits
  cases world.publishing <;> simp

instance (world : World Message) (observer : Observer) : Decidable (world.Awaits observer) :=
  decidable_of_iff _ awaits_iff

/-- The observers have one turn each, in a publication of the message that the channel holds. -/
structure Turned (world : World Message) : Prop where
  once : ∀ observers, world.publishing = some observers → observers.Nodup
  begun : ∀ observers, world.publishing = some observers → world.published ≠ []
  held : world.published ≠ [] → world.published.getLast? = some world.chan

/-- Nothing has been published at the start. -/
theorem turned_initial (message : Message) : (World.initial message).Turned :=
  -- There is no publication under way, either.
  ⟨nofun, nofun, fun nonempty => absurd rfl nonempty⟩

/-- Every step leaves the rest of the turns, or none. -/
theorem Turned.step {order : List Observer} {world next : World Message} {action : Action Message}
    (turned : world.Turned) (once : order.Nodup)
    (stepped : World.step order world action = some next) : next.Turned := by
  -- Every turn takes the first observer away, so the ones left still differ.
  obtain ⟨distinct, begun, held⟩ := turned
  cases step_sound stepped with
  | claim message free =>
    refine ⟨?_, fun _ _ => by simp, fun _ => List.getLast?_concat⟩
    rintro observers ⟨⟩
    exact once
  | callListener turn | handMsgSubscriber turn | tellSubscriber turn room | giveUp turn full =>
    refine ⟨?_, fun _ _ => begun _ turn, held⟩
    rintro observers ⟨⟩
    exact (List.nodup_cons.mp (distinct _ turn)).2
  | cutShort turn | release turn => exact ⟨nofun, nofun, held⟩
  | listenerTask first | msgSubTask first | subWait idle first | subRead wants free
  | subReadTimesOut wants turn => exact ⟨distinct, begun, held⟩

end World
end Notus.ZBusObservers
