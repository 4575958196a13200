import Notus.ActiveObject

/-! An active object whose callers wait for their results with a timeout. -/

namespace Notus.ActiveObject2

open ActiveObject (Word)

/-- The arguments of a subtraction. -/
structure SubArgs where
  a : Word
  b : Word
  deriving DecidableEq

/-- A printing call has no arguments. -/
structure PrintArgs where
  deriving DecidableEq

/-- The arguments of a call and the caller's future, which is there unless nothing is returned. -/
structure Package (Client : Type*) (isVoid : Bool) (ArgsType : Type*) where
  fut : Option Client
  args : ArgsType
  given : fut.isNone = isVoid
  deriving DecidableEq

namespace Package

variable {Client ArgsType : Type*}

/-- The package that a call puts together. -/
def ofRun (isVoid : Bool) (client : Client) (args : ArgsType) : Package Client isVoid ArgsType where
  -- A call that returns nothing hands over a null pointer.
  fut := if isVoid then none else some client
  args := args
  given := by cases isVoid <;> rfl

/-- The future that a result is written to. -/
def future (package : Package Client false ArgsType) : Client :=
  package.fut.get (Option.isNone_eq_false_iff.mp package.given)

/-- A package has its future, and no other. -/
theorem fut_eq (package : Package Client false ArgsType) : package.fut = some package.future :=
  -- Whether there is a future is decided by the type of the result.
  (Option.some_get _).symm

/-- A package that returns nothing has no future. -/
theorem fut_void (package : Package Client true ArgsType) : package.fut = none :=
  Option.isNone_iff_eq_none.mp package.given

end Package

/-- A message is empty or one of the two calls. -/
inductive MsgVar (Client : Type*) where
  | monostate
  | sub (package : Package Client false SubArgs)
  | print (package : Package Client true PrintArgs)
  deriving DecidableEq

/-- The server waits for a message, has got one, or has executed one and not yet said so. -/
inductive Server (Client : Type*) where
  | waiting
  | got (msg : MsgVar Client)
  | executed (fut : Client)
  deriving DecidableEq

/-- The message the server has got and not yet executed. -/
def Server.inHand {Client : Type*} : Server Client → List (MsgVar Client)
  | .got msg => [msg]
  | .waiting | .executed _ => []

/-- What the user of a function call sees: calls, and results with what the wait answered. -/
inductive Event where
  | ran (args : SubArgs)
  | returned (taken : Bool) (ret : Word)
  deriving DecidableEq

/-- A function call with its future, and all calls and results of it in order. -/
structure FunctionCall where
  fut : Future Word
  /-- Once the wait for a result is over, whether the semaphore was taken. -/
  waited : Option Bool
  events : List Event
  deriving DecidableEq

/-- A function call before its first use. -/
def FunctionCall.construct (memory : Word) : FunctionCall :=
  -- The value of the future is not initialised, only its semaphore is.
  { fut := .construct memory, waited := none, events := [] }

/-- The room for messages. -/
def messageQueueSize : Nat := 10

/-- Every client has a function call, and all share the queue and the server of one module. -/
structure World (Client : Type*) where
  calls : Client → FunctionCall
  msgq : KMsgq (MsgVar Client) messageQueueSize
  server : Server Client

/-- One atomic step of a client or of the server. -/
inductive Action (Client : Type*) where
  | runSub (client : Client) (args : SubArgs)
  | runPrint (client : Client)
  | takeSem (client : Client)
  /-- The semaphore was not given in time. -/
  | timeOut (client : Client)
  | getReturn (client : Client)
  | serverGet
  | serverExecute
  | serverGive
  deriving DecidableEq

namespace World

variable {Client : Type*}

/-- Before the first call, with whatever the futures' memory held. -/
def initial (memory : Client → Word) : World Client :=
  { calls := fun client => .construct (memory client), msgq := .empty, server := .waiting }

/-- The messages still to be executed, in the order in which they will be. -/
def pending (world : World Client) : List (MsgVar Client) :=
  world.server.inHand ++ world.msgq.items

/-- A message is put into the queue without waiting, and whether that worked is not looked at. -/
def put (world : World Client) (msg : MsgVar Client) : World Client :=
  { world with msgq := (kMsgqPut world.msgq msg).1 }

/-- A message that was put is pending behind the others, or it is forgotten. -/
theorem pending_put (world : World Client) (msg : MsgVar Client) :
    (world.put msg).pending = world.pending ++ [msg] ∨ (world.put msg).pending = world.pending := by
  -- A full queue refuses the message.
  rcases kMsgqPut_cases world.msgq msg with ⟨_, _, stored⟩ | ⟨_, _, same⟩
  · exact .inl (by simp [pending, put, stored])
  · exact .inr (by simp [pending, put, same])

variable [DecidableEq Client]

/-- One function call is changed. -/
def modify (world : World Client) (client : Client) (change : FunctionCall → FunctionCall) :
    World Client :=
  { world with calls := Function.update world.calls client (change (world.calls client)) }

@[simp] theorem modify_calls_self (world : World Client) (client : Client)
    (change : FunctionCall → FunctionCall) :
    (world.modify client change).calls client = change (world.calls client) :=
  Function.update_self ..

@[simp] theorem modify_calls_ne (world : World Client) {client other : Client}
    (different : other ≠ client) (change : FunctionCall → FunctionCall) :
    (world.modify client change).calls other = world.calls other :=
  Function.update_of_ne different ..

@[simp] theorem modify_msgq (world : World Client) (client : Client)
    (change : FunctionCall → FunctionCall) : (world.modify client change).msgq = world.msgq := rfl

/-- A call sends its arguments with the address of its future. -/
def runSub (world : World Client) (client : Client) (args : SubArgs) : World Client :=
  -- Neither the semaphore nor the value is reset.
  (world.modify client fun call => { call with events := call.events ++ [.ran args] }).put
    (.sub (.ofRun false client args))

/-- The wait of a client is over. -/
def endWait (world : World Client) (client : Client) (taken : Bool) (sem : KSem) : World Client :=
  world.modify client fun call =>
    { call with fut := { call.fut with sem := sem }, waited := some taken }

/-- A client returns with what its future holds, whether or not it has taken the semaphore. -/
def getReturn (world : World Client) (client : Client) (taken : Bool) : World Client :=
  -- The answer of the wait is not looked at.
  world.modify client fun call =>
    { call with waited := none, events := call.events ++ [.returned taken call.fut.ret] }

/-- Executing a subtraction writes its result into the future. -/
def executeMessage (world : World Client) (package : Package Client false SubArgs) : World Client :=
  world.modify package.future fun call =>
    { call with fut := { call.fut with ret := package.args.a - package.args.b } }

/-- After a message was executed, its semaphore is given next, where there is one. -/
def done (world : World Client) : Option Client → World Client
  | some fut => { world with server := .executed fut }
  | none => { world with server := .waiting }

/-- The server executes the message it has got. -/
def visit (world : World Client) : MsgVar Client → World Client
  | .monostate => { world with server := .waiting }
  | .sub package => (world.executeMessage package).done package.fut
  -- Printing changes nothing.
  | .print package => world.done package.fut

/-- The server gives the semaphore of a future, and waits for the next message. -/
def give (world : World Client) (fut : Client) : World Client :=
  { world.modify fut fun call =>
      { call with fut := { call.fut with sem := call.fut.sem.give } } with
    server := .waiting }

@[simp] theorem runSub_calls (world : World Client) (client : Client) (args : SubArgs) :
    (world.runSub client args).calls = (world.modify client fun call =>
      { call with events := call.events ++ [.ran args] }).calls := rfl

@[simp] theorem give_calls (world : World Client) (fut : Client) :
    (world.give fut).calls = (world.modify fut fun call =>
      { call with fut := { call.fut with sem := call.fut.sem.give } }).calls := rfl

/-- A subtraction was executed, and its semaphore is to be given. -/
theorem visit_sub (world : World Client) (package : Package Client false SubArgs) :
    world.visit (.sub package) =
      { world.executeMessage package with server := .executed package.future } := by
  -- The future of the package is the one that is signalled.
  rw [visit, package.fut_eq]
  rfl

/-- After printing there is no semaphore to give. -/
theorem visit_print (world : World Client) (package : Package Client true PrintArgs) :
    world.visit (.print package) = { world with server := .waiting } := by
  -- There is no future to be signalled.
  rw [visit, package.fut_void]
  rfl

/-- One action, refused where it would wait or its client is inside another call. -/
def step : Machine (World Client) (Action Client) := fun world action =>
  match action with
  | .runSub client args =>
    if (world.calls client).waited = none then some (world.runSub client args) else none
  | .runPrint client => some (world.put (.print (.ofRun true client {})))
  | .takeSem client =>
    match (world.calls client).waited, (world.calls client).fut.sem.take with
    | none, some sem => some (world.endWait client true sem)
    | _, _ => none
  -- A wait fails only while there is nothing to take.
  | .timeOut client =>
    match (world.calls client).waited, (world.calls client).fut.sem.take with
    | none, none => some (world.endWait client false (world.calls client).fut.sem)
    | _, _ => none
  | .getReturn client =>
    match (world.calls client).waited with
    | some taken => some (world.getReturn client taken)
    | none => none
  | .serverGet =>
    match world.server, world.msgq.get with
    | .waiting, some (msg, rest) => some { world with server := .got msg, msgq := rest }
    | _, _ => none
  | .serverExecute =>
    match world.server with
    | .got msg => some (world.visit msg)
    | _ => none
  | .serverGive =>
    match world.server with
    | .executed fut => some (world.give fut)
    | _ => none

variable {world next : World Client} {client : Client}

/-- A client sends its arguments between two waits. -/
theorem step_runSub {args : SubArgs} :
    step world (.runSub client args) = some next ↔
      (world.calls client).waited = none ∧ next = world.runSub client args := by
  simp only [step, Option.ite_none_right_eq_some, Option.some.injEq]
  exact and_congr_right fun _ => eq_comm

/-- A client takes its semaphore where the count allows it. -/
theorem step_takeSem :
    step world (.takeSem client) = some next ↔
      (world.calls client).waited = none ∧ ∃ sem, (world.calls client).fut.sem.take = some sem ∧
        next = world.endWait client true sem := by
  -- A client waits once for each result.
  simp only [step]
  cases waited : (world.calls client).waited <;>
    cases taken : (world.calls client).fut.sem.take <;> simp [eq_comm]

/-- A client gives up where there is nothing to take. -/
theorem step_timeOut :
    step world (.timeOut client) = some next ↔
      (world.calls client).waited = none ∧ (world.calls client).fut.sem.take = none ∧
        next = world.endWait client false (world.calls client).fut.sem := by
  -- A wait that found a signal would have taken it.
  simp only [step]
  cases waited : (world.calls client).waited <;>
    cases taken : (world.calls client).fut.sem.take <;> simp [eq_comm]

/-- A client returns when its wait is over. -/
theorem step_getReturn :
    step world (.getReturn client) = some next ↔
      ∃ taken, (world.calls client).waited = some taken ∧ next = world.getReturn client taken := by
  -- Without an answer to the wait there is no return.
  simp only [step]
  cases waited : (world.calls client).waited <;> simp [eq_comm]

/-- A waiting server takes the first message out of the queue. -/
theorem step_serverGet :
    step world .serverGet = some next ↔
      world.server = .waiting ∧ ∃ msg rest, world.msgq.get = some (msg, rest) ∧
        next = { world with server := .got msg, msgq := rest } := by
  -- A server that is busy gets nothing, and an empty queue gives nothing.
  simp only [step]
  cases server : world.server <;> cases got : world.msgq.get <;> simp [Prod.ext_iff, eq_comm]

/-- The server executes the message it has got. -/
theorem step_serverExecute :
    step world .serverExecute = some next ↔
      ∃ msg, world.server = .got msg ∧ next = world.visit msg := by
  -- There must be a message in the hand.
  simp only [step]
  cases server : world.server <;> simp [eq_comm]

/-- The server gives the semaphore of the future it has written. -/
theorem step_serverGive :
    step world .serverGive = some next ↔
      ∃ fut, world.server = .executed fut ∧ next = world.give fut := by
  -- There must be a result that was not signalled yet.
  simp only [step]
  cases server : world.server <;> simp [eq_comm]

end World
end Notus.ActiveObject2
