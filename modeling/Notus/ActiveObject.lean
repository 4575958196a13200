import Mathlib.Logic.Function.Basic
import Notus.Core.Machine
import Notus.Zephyr.Sync

/-! An active object: clients enqueue calls, one server handles them, and futures return results. -/

namespace Notus

/-- Where a call leaves its result, and the semaphore that says it is there. -/
structure Future (RetType : Type*) where
  ret : RetType
  sem : KSem
  deriving DecidableEq

/-- A constructed future has no result yet, and its value is whatever the memory held. -/
def Future.construct {RetType : Type*} (memory : RetType) : Future RetType :=
  { ret := memory, sem := .init 0 1 (Nat.zero_le 1) }

namespace ActiveObject

/-- A number of 32 bits, which wraps. -/
abbrev Word := BitVec 32

/-- A call of the subtraction, with the client whose future is to get the result. -/
structure SubHandler (Client : Type*) where
  fut : Client
  a : Word
  b : Word
  deriving DecidableEq

/-- What handling a subtraction writes into its future. -/
def SubHandler.handle {Client : Type*} (handler : SubHandler Client) (fut : Future Word) :
    Future Word :=
  -- Only the value is written, and the semaphore is given by the runner later.
  { fut with ret := handler.a - handler.b }

/-- A call that prints, and returns nothing. -/
structure PrintHandler where
  a : Word
  deriving DecidableEq

/-- A message is empty or one of the two calls. -/
inductive MsgVar (Client : Type*) where
  | monostate
  | sub (handler : SubHandler Client)
  | print (handler : PrintHandler)
  deriving DecidableEq

/-- The server waits for a message, has got one, or has handled one and not yet said so. -/
inductive Server (Client : Type*) where
  | waiting
  | got (msg : MsgVar Client)
  | handled (fut : Client)
  deriving DecidableEq

/-- The message the server has got and not yet handled. -/
def Server.inHand {Client : Type*} : Server Client → List (MsgVar Client)
  -- A handled message is no longer in the hand, although its semaphore is still to be given.
  | .got msg => [msg]
  | _ => []

/-- What a client sees of its own calls. -/
inductive Observation (Client : Type*) where
  | ran (client : Client) (a b : Word)
  | returned (client : Client) (ret : Word)
  deriving DecidableEq

/-- Every client has a function call with a future, and all share one queue and one server. -/
structure World (Client : Type*) (maxMsgs : Nat) where
  futures : Client → Future Word
  /-- The clients that have taken their semaphore and not yet read their result. -/
  taken : Client → Bool
  msgq : KMsgq (MsgVar Client) maxMsgs
  server : Server Client
  /-- The messages of all calls of `run` that have returned, in order. -/
  calls : List (MsgVar Client)
  /-- The messages that were executed, in order. -/
  executed : List (MsgVar Client)
  history : List (Observation Client)

/-- One atomic step of a client or of the server. -/
inductive Action (Client : Type*) where
  | runSub (client : Client) (a b : Word)
  | runPrint (a : Word)
  | takeSem (client : Client)
  | getReturn (client : Client)
  | serverGet
  | serverHandle
  | serverGive
  deriving DecidableEq

namespace World

variable {Client : Type*} {maxMsgs : Nat}

/-- Before the first call, with whatever the futures' memory held. -/
def initial (maxMsgs : Nat) (memory : Client → Word) : World Client maxMsgs :=
  -- The values of the futures are not initialised, only their semaphores are.
  { futures := fun client => .construct (memory client)
    taken := fun _ => false
    msgq := .empty
    server := .waiting
    calls := []
    executed := []
    history := [] }

/-- A message is put into the queue without waiting, and whether that worked is not looked at. -/
def run (world : World Client maxMsgs) (msg : MsgVar Client) : World Client maxMsgs :=
  -- The call counts as returned either way.
  { world with msgq := (kMsgqPut world.msgq msg).1, calls := world.calls ++ [msg] }

/-- The messages still to be executed, in the order in which they will be. -/
def pending (world : World Client maxMsgs) : List (MsgVar Client) :=
  -- The message in the hand was the first of the queue.
  world.server.inHand ++ world.msgq.items

/-- A call is pending behind the others when there was room, and forgotten when there was none. -/
theorem run_pending (world : World Client maxMsgs) (msg : MsgVar Client) :
    (world.run msg).calls = world.calls ++ [msg] ∧ (world.run msg).executed = world.executed ∧
      (world.msgq.items.length < maxMsgs → (world.run msg).pending = world.pending ++ [msg]) ∧
      (¬ world.msgq.items.length < maxMsgs → (world.run msg).pending = world.pending) := by
  -- The answer of the queue is not looked at, but it decides what the queue holds.
  refine ⟨rfl, rfl, ?_, ?_⟩
  · intro room
    rcases kMsgqPut_cases world.msgq msg with ⟨_, _, stored⟩ | ⟨full, _, _⟩
    · simp [run, pending, stored]
    · omega
  · intro none_
    rcases kMsgqPut_cases world.msgq msg with ⟨room, _, _⟩ | ⟨_, _, same⟩
    · exact absurd room none_
    · simp [run, pending, same]

/-- Getting a message takes it from the queue into the hand. -/
theorem pending_serverGet {world : World Client maxMsgs} {msg : MsgVar Client}
    {rest : KMsgq (MsgVar Client) maxMsgs} (waiting : world.server = .waiting)
    (got : world.msgq.get = some (msg, rest)) :
    ({ world with server := .got msg, msgq := rest } : World Client maxMsgs).pending =
      world.pending := by
  -- The hand was empty, so what was first in the queue is now alone in it.
  have items := Bounded.get_eq_some.mp got
  simp [pending, waiting, Server.inHand, items]

variable [DecidableEq Client]

/-- Executing a message runs its handler, and one that returns something has a future to give. -/
def handle (world : World Client maxMsgs) : MsgVar Client → World Client maxMsgs
  | .sub handler =>
    { world with
      futures := Function.update world.futures handler.fut
        (handler.handle (world.futures handler.fut))
      server := .handled handler.fut
      executed := world.executed ++ [.sub handler] }
  -- Nobody waits for the other messages, so there is no semaphore to give.
  | msg => { world with server := .waiting, executed := world.executed ++ [msg] }

/-- A client has taken its semaphore, and its result is not read yet. -/
def take (world : World Client maxMsgs) (client : Client) (sem : KSem) : World Client maxMsgs :=
  { world with
    futures := Function.update world.futures client { world.futures client with sem := sem }
    taken := Function.update world.taken client true }

/-- A client returns with what its future holds. -/
def getReturn (world : World Client maxMsgs) (client : Client) : World Client maxMsgs :=
  -- The value is read after the semaphore was taken, in a step of its own.
  { world with
    taken := Function.update world.taken client false
    history := world.history ++ [.returned client (world.futures client).ret] }

/-- The server gives the semaphore of a future, and waits for the next message. -/
def give (world : World Client maxMsgs) (fut : Client) : World Client maxMsgs :=
  { world with
    futures := Function.update world.futures fut
      { world.futures fut with sem := (world.futures fut).sem.give }
    server := .waiting }

/-- One action, refused where it would wait. -/
def step : Machine (World Client maxMsgs) (Action Client) := fun world action =>
  match action with
  | .runSub client a b =>
    let world := { world with history := world.history ++ [Observation.ran client a b] }
    some (world.run (.sub { fut := client, a := a, b := b }))
  | .runPrint a => some (world.run (.print { a := a }))
  | .takeSem client =>
    match (world.futures client).sem.take with
    | none => none
    | some sem => some (world.take client sem)
  -- A client waits for ever, so it returns only after it has taken its semaphore.
  | .getReturn client => if world.taken client then some (world.getReturn client) else none
  | .serverGet =>
    match world.server, world.msgq.get with
    | .waiting, some (msg, rest) => some { world with server := .got msg, msgq := rest }
    | _, _ => none
  | .serverHandle =>
    match world.server with
    | .got msg => some (world.handle msg)
    | _ => none
  | .serverGive =>
    match world.server with
    | .handled fut => some (world.give fut)
    | _ => none

/-- Handling takes the message out of the hand. -/
theorem pending_handle {world : World Client maxMsgs} {msg : MsgVar Client}
    (got : world.server = .got msg) : world.pending = msg :: (world.handle msg).pending := by
  -- Whatever the message is, the hand is empty afterwards.
  cases msg <;> simp [pending, got, Server.inHand, handle]

/-- A client takes its semaphore where the count allows it. -/
theorem step_takeSem {world next : World Client maxMsgs} {client : Client} :
    step world (.takeSem client) = some next ↔
      ∃ sem, (world.futures client).sem.take = some sem ∧ next = world.take client sem := by
  -- A semaphore at zero makes the client wait.
  simp only [step]
  cases taken : (world.futures client).sem.take <;> simp [eq_comm]

/-- A client that has taken its semaphore reads its result. -/
theorem step_getReturn {world next : World Client maxMsgs} {client : Client} :
    step world (.getReturn client) = some next ↔
      world.taken client = true ∧ next = world.getReturn client := by
  -- The flag of the client says how far its call has come.
  simp only [step]
  cases taken : world.taken client <;> simp [eq_comm]

/-- A waiting server takes the first message out of the queue. -/
theorem step_serverGet {world next : World Client maxMsgs} :
    step world .serverGet = some next ↔
      world.server = .waiting ∧ ∃ msg rest, world.msgq.get = some (msg, rest) ∧
        next = { world with server := .got msg, msgq := rest } := by
  -- The server waits while the queue is empty.
  simp only [step]
  cases server : world.server <;> cases got : world.msgq.get <;> simp [Prod.ext_iff, eq_comm]

/-- The server handles the message it has got. -/
theorem step_serverHandle {world next : World Client maxMsgs} :
    step world .serverHandle = some next ↔
      ∃ msg, world.server = .got msg ∧ next = world.handle msg := by
  -- There is one message in the hand, and it is handled whatever it is.
  simp only [step]
  cases server : world.server <;> simp [eq_comm]

/-- The server gives the semaphore of the future it has written. -/
theorem step_serverGive {world next : World Client maxMsgs} :
    step world .serverGive = some next ↔
      ∃ fut, world.server = .handled fut ∧ next = world.give fut := by
  -- The pointer to the future was kept with the handler.
  simp only [step]
  cases server : world.server <;> simp [eq_comm]

end World
end ActiveObject
end Notus
