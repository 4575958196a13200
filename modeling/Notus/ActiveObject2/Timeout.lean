import Notus.ActiveObject2
import Notus.Core.Exchange

/-! Waits that end without a result, and what they leave behind for the calls after them. -/

namespace Notus.ActiveObject2

open ActiveObject (Word)

/-- The arguments of the latest call, until its result has been returned. -/
def FunctionCall.asked (call : FunctionCall) : Option SubArgs :=
  match call.events.getLast? with
  | some (.ran args) => some args
  | _ => none

/-- After a call, its arguments are those that were asked for. -/
theorem FunctionCall.asked_ran (call : FunctionCall) (args : SubArgs) :
    FunctionCall.asked { call with events := call.events ++ [.ran args] } = some args := by
  -- A call is open when the latest event is its beginning.
  simp [asked]

/-- A call is over when it has returned, whatever the wait answered. -/
theorem FunctionCall.asked_returned (call : FunctionCall) (waited : Option Bool) (taken : Bool)
    (ret : Word) :
    FunctionCall.asked
      { call with waited := waited, events := call.events ++ [.returned taken ret] } = none := by
  -- The latest event is now the end of a call.
  simp [asked]

/-- The call that is asked for is the latest event. -/
theorem FunctionCall.getLast_of_asked {call : FunctionCall} {args : SubArgs}
    (asked : call.asked = some args) : call.events.getLast? = some (.ran args) := by
  -- Only a call that has begun is asked for anything.
  unfold FunctionCall.asked at asked
  split at asked
  · rename_i last
    cases asked
    exact last
  · cases asked

/-- The result of a subtraction. -/
def SubArgs.result (args : SubArgs) : Word :=
  args.a - args.b

section Exchange

variable {Client : Type*} [DecidableEq Client]

/-- What a message asks of a client's future. -/
def argsFor (client : Client) : MsgVar Client → Option SubArgs
  -- Empty and printing messages point at no future.
  | .sub package => if package.fut = some client then some package.args else none
  | .monostate | .print _ => none

/-- The server has written a client's result and not given its semaphore. -/
def Server.owes (client : Client) : Server Client → Bool
  | .executed fut => decide (fut = client)
  | .waiting | .got _ => false

namespace World

/-- What is on its way between a client and the server. -/
def exchange (world : World Client) (client : Client) : Exchange SubArgs Word where
  asked := (world.calls client).asked
  queued := world.pending.filterMap (argsFor client)
  computed := world.server.owes client
  signals := (world.calls client).fut.sem.count
  taken := (world.calls client).waited.getD false
  ret := (world.calls client).fut.ret

/-- A client calls and waits in turn. -/
def Alternates (client : Client) (world : World Client) : Action Client → Prop
  | .runSub caller _ => caller = client → (world.calls client).asked = none
  | .takeSem caller | .timeOut caller => caller = client → (world.calls client).asked ≠ none
  | .runPrint _ | .getReturn _ | .serverGet | .serverExecute | .serverGive => True

/-- A client calls only when nothing is left of its earlier calls. -/
def Settled (client : Client) (world : World Client) : Action Client → Prop
  | .runSub caller _ => caller = client → (world.exchange client).Clear
  | .runPrint _ | .takeSem _ | .timeOut _ | .getReturn _ | .serverGet | .serverExecute
  | .serverGive => True

instance (client : Client) (world : World Client) :
    (action : Action Client) → Decidable (world.Alternates client action)
  | .runSub _ _ => inferInstanceAs (Decidable (_ → _ = none))
  | .takeSem _ | .timeOut _ => inferInstanceAs (Decidable (_ → _ ≠ none))
  | .runPrint _ | .getReturn _ | .serverGet | .serverExecute | .serverGive => isTrue trivial

instance (client : Client) (world : World Client) :
    (action : Action Client) → Decidable (world.Settled client action)
  | .runSub _ _ => inferInstanceAs (Decidable (_ → (world.exchange client).Clear))
  | .runPrint _ | .takeSem _ | .timeOut _ | .getReturn _ | .serverGet | .serverExecute
  | .serverGive => isTrue trivial

variable {world next : World Client} {client : Client}

/-- A client whose future, messages and events stay as they are is not concerned. -/
theorem exchange_congr (calls : next.calls client = world.calls client)
    (pending : next.pending.filterMap (argsFor client) = world.pending.filterMap (argsFor client))
    (server : next.server.owes client = world.server.owes client) :
    next.exchange client = world.exchange client := by
  -- An exchange shows nothing else of the world.
  unfold exchange
  rw [calls, pending, server]

/-- Changing one function call concerns its own client. -/
theorem exchange_modify_ne {caller : Client} (different : client ≠ caller)
    (change : FunctionCall → FunctionCall) :
    (world.modify caller change).exchange client = world.exchange client :=
  -- Neither the queue nor the server changes with a function call.
  exchange_congr (modify_calls_ne world different change) rfl rfl

/-- A message that is put asks its client for something more, or it is lost. -/
theorem exchange_put (world : World Client) (msg : MsgVar Client) (client : Client) :
    (world.put msg).exchange client = { world.exchange client with
        queued := (world.exchange client).queued ++ (argsFor client msg).toList } ∨
      (world.put msg).exchange client = world.exchange client := by
  -- A full queue drops the message, and then nothing is asked.
  unfold exchange
  rcases world.pending_put msg with sent | lost
  · left
    rw [sent, List.filterMap_append]
    cases asks : argsFor client msg <;> simp [asks, put]
  · right
    rw [lost]
    rfl

/-- A call asks for its own client's result, or is lost, and concerns nobody else. -/
theorem runSub_moves {caller : Client} {args : SubArgs}
    (alternates : caller = client → (world.calls client).asked = none)
    (settled : caller = client → (world.exchange client).Clear) :
    Exchange.TimedMove SubArgs.result (world.exchange client)
      ((world.runSub caller args).exchange client) := by
  have put := (world.modify caller fun call =>
    { call with events := call.events ++ [.ran args] }).exchange_put
      (.sub (.ofRun false caller args)) client
  by_cases own : caller = client
  · subst own
    have idle : (world.exchange caller).asked = none := alternates rfl
    have called : (world.modify caller fun call =>
        { call with events := call.events ++ [.ran args] }).exchange caller =
          { world.exchange caller with asked := some args } := by
      simp only [exchange, modify_calls_self, FunctionCall.asked_ran]
      rfl
    have asks : argsFor caller (.sub (.ofRun false caller args)) = some args := by
      simp [argsFor, Package.ofRun]
    rw [called, asks] at put
    unfold runSub
    rcases put with sent | lost
    · rw [sent]
      exact .move (.ask args idle) fun _ _ => .inr (settled rfl)
    · -- A full queue refuses the message, and the caller does not notice.
      rw [lost]
      exact .move (.lose args idle) fun _ _ => .inr (settled rfl)
  · have asks : argsFor client (.sub (.ofRun false caller args)) = none := by
      simp [argsFor, Package.ofRun, own]
    rw [asks, exchange_modify_ne (Ne.symm own)] at put
    refine .of_eq ?_
    unfold runSub
    rcases put with sent | lost
    · rw [sent]
      simp
    · exact lost

/-- Printing asks nothing of any future. -/
theorem runPrint_keeps (world : World Client) (caller client : Client) :
    (world.put (.print (.ofRun true caller {}))).exchange client = world.exchange client := by
  -- The message has no future, so nobody finds anything in it.
  rcases world.exchange_put (.print (.ofRun true caller {})) client with sent | lost
  · rw [sent]
    simp [argsFor]
  · exact lost

/-- Taking a semaphore takes a signal of its own client, which is waiting for one. -/
theorem takeSem_moves {caller : Client} {sem : KSem}
    (alternates : caller = client → (world.calls client).asked ≠ none)
    (took : (world.calls caller).fut.sem.take = some sem) :
    Exchange.TimedMove SubArgs.result (world.exchange client)
      ((world.endWait caller true sem).exchange client) := by
  -- Only the caller's own semaphore is taken, and everybody else's exchange is as before.
  obtain ⟨signalled, count⟩ := KSem.take_eq_some took
  by_cases own : caller = client
  · subst own
    have moved : (world.endWait caller true sem).exchange caller = { world.exchange caller with
        signals := (world.exchange caller).signals - 1, taken := true } := by
      simp only [exchange, endWait, modify_calls_self, count]
      rfl
    rw [moved]
    exact .move (.take signalled) fun idle _ => absurd idle (alternates rfl)
  · exact .of_eq (exchange_modify_ne (Ne.symm own) _)

/-- A wait that ends without the semaphore leaves everything on its way. -/
theorem timeOut_keeps {caller : Client} (waits : (world.calls caller).waited = none)
    (client : Client) :
    (world.endWait caller false (world.calls caller).fut.sem).exchange client =
      world.exchange client := by
  -- The semaphore is put back as it was found, with no signal in it.
  by_cases own : client = caller
  · subst own
    simp only [exchange, endWait, modify_calls_self, waits]
    rfl
  · exact exchange_modify_ne own _

/-- A client that returns has its result, or gives it up. -/
theorem getReturn_moves {caller : Client} {taken : Bool}
    (waited : (world.calls caller).waited = some taken) (client : Client) :
    Exchange.TimedMove SubArgs.result (world.exchange client)
      ((world.getReturn caller taken).exchange client) := by
  -- What the wait was answered decides whether the call is finished or given up.
  by_cases own : caller = client
  · subst own
    have moved : (world.getReturn caller taken).exchange caller =
        { world.exchange caller with asked := none, taken := false } := by
      simp only [exchange, getReturn, modify_calls_self, FunctionCall.asked_returned]
      rfl
    have took : (world.exchange caller).taken = taken := by
      simp [exchange, waited]
    rw [moved]
    cases taken with
    | true => exact .move (.back took) fun _ _ => .inl ⟨rfl, rfl⟩
    | false =>
      rw [← took]
      exact .giveUp took
  · exact .of_eq (exchange_modify_ne (Ne.symm own) _)

/-- Getting a message leaves it pending. -/
theorem serverGet_keeps {msg : MsgVar Client} {rest : KMsgq (MsgVar Client) messageQueueSize}
    (waiting : world.server = .waiting) (got : world.msgq.get = some (msg, rest))
    (client : Client) :
    ({ world with server := .got msg, msgq := rest } : World Client).exchange client =
      world.exchange client := by
  -- The message moves from the head of the queue into the hand, which comes before it.
  have items := Bounded.get_eq_some.mp got
  refine exchange_congr rfl ?_ ?_
  · simp [pending, waiting, Server.inHand, items]
  · rw [waiting]
    rfl

/-- What the message in the hand asks of a client is pending before what those in the queue ask. -/
theorem pending_of_got {msg : MsgVar Client} (got : world.server = .got msg) (client : Client) :
    world.pending.filterMap (argsFor client) =
      (argsFor client msg).toList ++ world.msgq.items.filterMap (argsFor client) := by
  -- The hand is in front of the queue.
  cases asks : argsFor client msg <;> simp [pending, got, Server.inHand, asks]

/-- After a message was executed, the messages of the queue are pending. -/
theorem pending_visit (world : World Client) (msg : MsgVar Client) :
    (world.visit msg).pending = world.msgq.items := by
  -- The hand of the server is empty.
  cases msg with
  | sub package =>
    rw [visit_sub]
    rfl
  | monostate => rfl
  | print package =>
    rw [visit_print]
    rfl

/-- Executing a client's message writes its result. -/
theorem visit_own (world : World Client) {msg : MsgVar Client} {args : SubArgs}
    (asks : argsFor client msg = some args) :
    (world.visit msg).server = .executed client ∧
      (world.visit msg).calls client = { world.calls client with
        fut := { (world.calls client).fut with ret := args.result } } := by
  cases msg with
  | sub package =>
    -- The message names the future of the client.
    simp only [argsFor, package.fut_eq, Option.ite_none_right_eq_some, Option.some.injEq] at asks
    obtain ⟨rfl, rfl⟩ := asks
    rw [visit_sub]
    exact ⟨rfl, Function.update_self ..⟩
  | monostate => cases asks
  | print package => cases asks

/-- Executing a message for somebody else leaves a client's function call as it is. -/
theorem visit_foreign (world : World Client) {msg : MsgVar Client}
    (foreign : argsFor client msg = none) :
    (world.visit msg).server.owes client = false ∧
      (world.visit msg).calls client = world.calls client := by
  -- The future of the message tells whose it is.
  cases msg with
  | sub package =>
    have other : package.future ≠ client := by
      rintro rfl
      simp [argsFor, package.fut_eq] at foreign
    rw [visit_sub]
    exact ⟨decide_eq_false other, Function.update_of_ne (Ne.symm other) ..⟩
  | monostate => exact ⟨rfl, rfl⟩
  | print package =>
    rw [visit_print]
    exact ⟨rfl, rfl⟩

/-- Executing a message computes for the client whose future it names, and for nobody else. -/
theorem visit_moves {msg : MsgVar Client} (got : world.server = .got msg) (client : Client) :
    Exchange.TimedMove SubArgs.result (world.exchange client)
      ((world.visit msg).exchange client) := by
  -- A message is for the client or it is not, and only then something is computed.
  have queued : (world.exchange client).queued =
      (argsFor client msg).toList ++ world.msgq.items.filterMap (argsFor client) := by
    cases asks : argsFor client msg <;> simp [exchange, pending, got, Server.inHand, asks]
  cases asks : argsFor client msg with
  | none =>
    obtain ⟨free, kept⟩ := visit_foreign world asks
    rw [asks] at queued
    refine .of_eq (exchange_congr kept ?_ ?_)
    · rw [pending_visit]
      exact queued.symm
    · rw [free, got]
      rfl
  | some args =>
    obtain ⟨executed, written⟩ := visit_own world asks
    rw [asks] at queued
    have moved : (world.visit msg).exchange client = { world.exchange client with
        queued := world.msgq.items.filterMap (argsFor client)
        computed := true
        ret := args.result } := by
      simp [exchange, pending_visit, executed, written, Server.owes, FunctionCall.asked]
    rw [moved]
    exact .move (.compute queued) fun idle untaken => .inl ⟨idle, untaken⟩

/-- Giving a semaphore signals the client whose result was written. -/
theorem give_moves {fut : Client} (executed : world.server = .executed fut) (client : Client) :
    Exchange.TimedMove SubArgs.result (world.exchange client)
      ((world.give fut).exchange client) := by
  by_cases own : fut = client
  · subst own
    have moved : (world.give fut).exchange fut = { world.exchange fut with
        computed := false, signals := (world.calls fut).fut.sem.give.count } := by
      simp [exchange, give, pending, executed, Server.inHand, Server.owes, modify,
        FunctionCall.asked]
    have owes : (world.exchange fut).computed = true := by
      simp [exchange, executed, Server.owes]
    rw [moved]
    -- A semaphore that was not taken swallows the signal.
    exact .move (.signal _ owes (KSem.give_le _)) fun idle untaken => .inl ⟨idle, untaken⟩
  · refine .of_eq (exchange_congr (Function.update_of_ne (Ne.symm own) ..) ?_ ?_)
    · simp [pending, give, executed, Server.inHand]
    · rw [executed]
      exact (decide_eq_false own).symm

/-- Every action is one move in the exchange of a client that alternates and calls when settled. -/
theorem step_moves {action : Action Client} (alternates : world.Alternates client action)
    (settled : world.Settled client action) (stepped : step world action = some next) :
    Exchange.TimedMove SubArgs.result (world.exchange client) (next.exchange client) := by
  -- Every action has its own lemma.
  cases action with
  | runSub caller args =>
    obtain ⟨_, rfl⟩ := step_runSub.mp stepped
    exact runSub_moves alternates settled
  | runPrint caller =>
    cases stepped
    exact .of_eq (runPrint_keeps world caller client)
  | takeSem caller =>
    obtain ⟨_, sem, took, rfl⟩ := step_takeSem.mp stepped
    exact takeSem_moves alternates took
  | timeOut caller =>
    obtain ⟨waits, _, rfl⟩ := step_timeOut.mp stepped
    exact .of_eq (timeOut_keeps waits client)
  | getReturn caller =>
    obtain ⟨taken, waited, rfl⟩ := step_getReturn.mp stepped
    exact getReturn_moves waited client
  | serverGet =>
    obtain ⟨waiting, msg, rest, got, rfl⟩ := step_serverGet.mp stepped
    exact .of_eq (serverGet_keeps waiting got client)
  | serverExecute =>
    obtain ⟨msg, got, rfl⟩ := step_serverExecute.mp stepped
    exact visit_moves got client
  | serverGive =>
    obtain ⟨fut, executed, rfl⟩ := step_serverGive.mp stepped
    exact give_moves executed client

/-- Every result for which the semaphore was taken is that of the call before it. -/
def OwnResults (events : List Event) : Prop :=
  ∀ before ret after, events = before ++ .returned true ret :: after →
    ∃ args, before.getLast? = some (.ran args) ∧ ret = args.result

/-- Events stay right when what is added to them is. -/
theorem OwnResults.append {events : List Event} (own : OwnResults events) (event : Event)
    (right : ∀ ret, event = .returned true ret →
      ∃ args, events.getLast? = some (.ran args) ∧ ret = args.result) :
    OwnResults (events ++ [event]) := by
  -- The property is one of every return with the events before it.
  have each : ∀ before entry after, events = before ++ entry :: after →
      ∀ ret, entry = .returned true ret →
        ∃ args, before.getLast? = some (.ran args) ∧ ret = args.result := by
    rintro before _ after split ret rfl
    exact own before ret after split
  intro before ret after split
  exact Exchange.history_append each event right before _ after split ret rfl

/-- A client that uses its function call in turn, and only when nothing is left of earlier calls. -/
def Careful (client : Client) (world : World Client) (action : Action Client) : Prop :=
  world.Alternates client action ∧ world.Settled client action

instance (client : Client) (world : World Client) (action : Action Client) :
    Decidable (world.Careful client action) :=
  inferInstanceAs (Decidable (_ ∧ _))

/-- What one action can do to a function call. -/
inductive Changed : FunctionCall → FunctionCall → Prop where
  | same (call : FunctionCall) : Changed call call
  | ran (call : FunctionCall) (args : SubArgs) :
      Changed call { call with events := call.events ++ [.ran args] }
  | waited {call : FunctionCall} (taken : Bool) {sem : KSem}
      (limit : sem.limit = call.fut.sem.limit) :
      Changed call { call with fut := { call.fut with sem := sem }, waited := some taken }
  | returned {call : FunctionCall} {taken : Bool} (waited : call.waited = some taken) :
      Changed call
        { call with waited := none, events := call.events ++ [.returned taken call.fut.ret] }
  | written (call : FunctionCall) (ret : Word) :
      Changed call { call with fut := { call.fut with ret := ret } }
  | given (call : FunctionCall) :
      Changed call { call with fut := { call.fut with sem := call.fut.sem.give } }

/-- What is done to one function call is all that is done. -/
theorem changed_modify {caller : Client} {change : FunctionCall → FunctionCall}
    (own : Changed (world.calls caller) (change (world.calls caller))) (client : Client) :
    Changed (world.calls client) ((world.modify caller change).calls client) := by
  -- The function calls of the others are kept by the update.
  by_cases same : client = caller
  · subst same
    rwa [modify_calls_self]
  · rw [modify_calls_ne world same]
    exact .same _

/-- Every action changes each function call in one of these ways. -/
theorem step_changed {action : Action Client} (stepped : step world action = some next)
    (client : Client) : Changed (world.calls client) (next.calls client) := by
  -- Who acts changes its own function call, and the server that of the client it answers.
  cases action with
  | runSub caller args =>
    obtain ⟨_, rfl⟩ := step_runSub.mp stepped
    rw [runSub_calls]
    exact changed_modify (.ran _ args) client
  | runPrint caller =>
    cases stepped
    exact .same _
  | takeSem caller =>
    obtain ⟨_, sem, took, rfl⟩ := step_takeSem.mp stepped
    exact changed_modify (.waited true (KSem.take_limit took)) client
  | timeOut caller =>
    obtain ⟨_, _, rfl⟩ := step_timeOut.mp stepped
    exact changed_modify (.waited false rfl) client
  | getReturn caller =>
    obtain ⟨taken, waited, rfl⟩ := step_getReturn.mp stepped
    exact changed_modify (.returned waited) client
  | serverGet =>
    obtain ⟨_, msg, rest, _, rfl⟩ := step_serverGet.mp stepped
    exact .same _
  | serverExecute =>
    obtain ⟨msg, _, rfl⟩ := step_serverExecute.mp stepped
    cases msg with
    | sub package =>
      rw [visit_sub]
      show Changed _ ((world.executeMessage package).calls client)
      exact changed_modify (.written _ _) client
    | monostate => exact .same _
    | print package =>
      rw [visit_print]
      exact .same _
  | serverGive =>
    obtain ⟨fut, _, rfl⟩ := step_serverGive.mp stepped
    rw [give_calls]
    exact changed_modify (.given _) client

/-- An exchange in one of its stages, and results that have been returned to the right calls. -/
def Sound (client : Client) (world : World Client) : Prop :=
  (world.exchange client).TimedSound SubArgs.result ∧ OwnResults (world.calls client).events

/-- Every action of careful use keeps the exchange sound and its results right. -/
theorem Sound.step {action : Action Client} (sound : world.Sound client)
    (careful : world.Careful client action) (stepped : World.step world action = some next) :
    next.Sound client := by
  obtain ⟨exchange, own⟩ := sound
  refine ⟨exchange.move (step_moves careful.1 careful.2 stepped), ?_⟩
  have changed := step_changed stepped client
  -- The events of a client grow by its calls and by what it returns with.
  generalize next.calls client = after at changed ⊢
  cases changed with
  | same | waited | written | given => exact own
  | ran args => exact own.append _ nofun
  | returned waited =>
    refine own.append _ ?_
    rintro ret ⟨⟩
    -- Having taken the semaphore, the client finds the result of the call before.
    have took : (world.exchange client).taken = true := by
      show (world.calls client).waited.getD false = true
      rw [waited]
      rfl
    obtain ⟨args, asked, result⟩ := exchange.result took
    exact ⟨args, FunctionCall.getLast_of_asked asked, result⟩

/-- Before the first call nothing is on its way to anybody. -/
theorem sound_initial (memory : Client → Word) (client : Client) :
    (initial memory).Sound client := by
  -- The exchange is idle, and there are no events to be right.
  refine ⟨.inl (.idle (memory client)), fun before ret after split => ?_⟩
  simp [initial, FunctionCall.construct] at split

end World
end Exchange
end Notus.ActiveObject2
