import Notus.Core.Fixed
import Notus.Core.Machine
import Notus.Zephyr.Sync

/-! One task publishes two kinds of events, and the main thread processes them from one queue. -/

namespace Notus.ZBusStandard

structure DataAEvent where
  value : Int
  deriving DecidableEq, Repr

structure DataBEvent where
  value : Int
  deriving DecidableEq, Repr

/-- An event of either kind. -/
inductive EventHolder where
  | dataA (event : DataAEvent)
  | dataB (event : DataBEvent)
  deriving DecidableEq, Repr

/-- The channels of the program, and any other one that a listener could be added to. -/
inductive Channel where
  | dataAEventChan
  | dataBEventChan
  | other (name : String)
  deriving DecidableEq, Repr

/-- Where the publishing task is: before a publication, or inside one that claimed its channel. -/
inductive Position where
  | beforeA
  | insideA
  | beforeB
  | insideB
  deriving DecidableEq, Repr

/-- The publishing task with its events, the two channels, and the queue of the main thread. -/
structure World where
  position : Position
  msgA : DataAEvent
  msgB : DataBEvent
  dataAEventChan : DataAEvent
  dataBEventChan : DataBEvent
  eventQueue : KMsgq EventHolder 10
  /-- The events that were given to a publication, in order. -/
  published : List EventHolder
  /-- The events that were processed, in order. -/
  processed : List EventHolder

/-- One atomic step of the publishing task or the main thread. -/
inductive Action where
  /-- A publication claims its channel and copies the event into it. -/
  | claim
  /-- The channel could not be claimed in time. -/
  | claimFails
  /-- The listener is called, and the publication is over. -/
  | listen
  | main
  deriving DecidableEq, Repr

namespace World

/-- Both tasks are at their beginning. -/
def initial : World :=
  { position := .beforeA
    msgA := ⟨0⟩
    msgB := ⟨10000000⟩
    dataAEventChan := ⟨0⟩
    dataBEventChan := ⟨0⟩
    eventQueue := .empty
    published := []
    processed := [] }

/-- The listener turns the message of a channel into an event, if it knows the channel. -/
def mainLisCb (world : World) : Channel → Option (KMsgq EventHolder 10)
  | .dataAEventChan => some (kMsgqPut world.eventQueue (.dataA world.dataAEventChan)).1
  | .dataBEventChan => some (kMsgqPut world.eventQueue (.dataB world.dataBEventChan)).1
  -- A channel that is listened to but not processed fails an assertion.
  | .other _ => none

/-- After the first publication of a round its event is counted up. -/
def afterA (world : World) : Option World :=
  -- Counting beyond the last number is not defined.
  (Fixed.checked 32 (world.msgA.value + 1)).map fun value =>
    { world with
      position := .beforeB
      msgA := ⟨value⟩
      published := world.published ++ [.dataA world.msgA] }

/-- After the second publication of a round its event is counted down. -/
def afterB (world : World) : Option World :=
  (Fixed.checked 32 (world.msgB.value - 1)).map fun value =>
    { world with
      position := .beforeA
      msgB := ⟨value⟩
      published := world.published ++ [.dataB world.msgB] }

/-- One action, refused where it would wait or is not the task's next. -/
def step : Machine World Action := fun world action =>
  match action, world.position with
  | .claim, .beforeA => some { world with position := .insideA, dataAEventChan := world.msgA }
  | .claim, .beforeB => some { world with position := .insideB, dataBEventChan := world.msgB }
  -- The task does not look at the answer, and counts on.
  | .claimFails, .beforeA => world.afterA
  | .claimFails, .beforeB => world.afterB
  | .listen, .insideA =>
    (world.mainLisCb .dataAEventChan).bind fun eventQueue =>
      afterA { world with eventQueue := eventQueue }
  | .listen, .insideB =>
    (world.mainLisCb .dataBEventChan).bind fun eventQueue =>
      afterB { world with eventQueue := eventQueue }
  | .main, _ =>
    match world.eventQueue.get with
    | some (event, rest) => some
        { world with eventQueue := rest, processed := world.processed ++ [event] }
    | none => none
  | _, _ => none

/-- What a step does, by the action and by where the publishing task is. -/
inductive Step (world : World) : Action → World → Prop where
  | claimA (turn : world.position = .beforeA) :
      Step world .claim { world with position := .insideA, dataAEventChan := world.msgA }
  | claimB (turn : world.position = .beforeB) :
      Step world .claim { world with position := .insideB, dataBEventChan := world.msgB }
  | skipA (turn : world.position = .beforeA) :
      Step world .claimFails
        { world with
          position := .beforeB
          msgA := ⟨world.msgA.value + 1⟩
          published := world.published ++ [.dataA world.msgA] }
  | skipB (turn : world.position = .beforeB) :
      Step world .claimFails
        { world with
          position := .beforeA
          msgB := ⟨world.msgB.value - 1⟩
          published := world.published ++ [.dataB world.msgB] }
  | listenA (turn : world.position = .insideA) :
      Step world .listen
        { world with
          position := .beforeB
          msgA := ⟨world.msgA.value + 1⟩
          eventQueue := (kMsgqPut world.eventQueue (.dataA world.dataAEventChan)).1
          published := world.published ++ [.dataA world.msgA] }
  | listenB (turn : world.position = .insideB) :
      Step world .listen
        { world with
          position := .beforeA
          msgB := ⟨world.msgB.value - 1⟩
          eventQueue := (kMsgqPut world.eventQueue (.dataB world.dataBEventChan)).1
          published := world.published ++ [.dataB world.msgB] }
  | main {event : EventHolder} {rest : KMsgq EventHolder 10}
      (first : world.eventQueue.items = event :: rest.items) :
      Step world .main
        { world with eventQueue := rest, processed := world.processed ++ [event] }

/-- Every step that is taken is one of these. -/
theorem step_sound {world next : World} {action : Action}
    (stepped : step world action = some next) : Step world action next := by
  -- Whose turn it is to publish decides which message is meant.
  cases action with
  | claim =>
    cases turn : world.position <;> simp only [step, turn] at stepped <;> cases stepped
    · exact .claimA turn
    · exact .claimB turn
  | claimFails =>
    cases turn : world.position <;> simp only [step, turn] at stepped
    case beforeA =>
      obtain ⟨value, counted, rfl⟩ := Option.map_eq_some_iff.mp stepped
      obtain ⟨_, rfl⟩ := Fixed.checked_eq_some.mp counted
      exact .skipA turn
    case beforeB =>
      obtain ⟨value, counted, rfl⟩ := Option.map_eq_some_iff.mp stepped
      obtain ⟨_, rfl⟩ := Fixed.checked_eq_some.mp counted
      exact .skipB turn
    all_goals cases stepped
  | listen =>
    cases turn : world.position <;> simp only [step, turn] at stepped
    case insideA =>
      obtain ⟨value, counted, rfl⟩ := Option.map_eq_some_iff.mp stepped
      obtain ⟨_, rfl⟩ := Fixed.checked_eq_some.mp counted
      exact .listenA turn
    case insideB =>
      obtain ⟨value, counted, rfl⟩ := Option.map_eq_some_iff.mp stepped
      obtain ⟨_, rfl⟩ := Fixed.checked_eq_some.mp counted
      exact .listenB turn
    all_goals cases stepped
  | main =>
    cases got : world.eventQueue.get <;> simp only [step, got] at stepped <;> cases stepped
    exact .main (Bounded.get_eq_some.mp got)

end World
end Notus.ZBusStandard
