import Notus.ActiveObject
import Notus.Core.Exchange

/-! Results of calls: a client that waits for one call before the next gets its own results. -/

namespace Notus.ActiveObject

variable {Client : Type*} {maxMsgs : Nat}

/-- The client an observation is made by. -/
def Observation.client : Observation Client → Client
  | .ran client _ _ => client
  | .returned client _ => client

variable [DecidableEq Client]

/-- The latest of a client's own observations. -/
def lastOf (history : List (Observation Client)) (client : Client) : Option (Observation Client) :=
  -- Other clients' observations in between do not count.
  (history.filter fun seen => seen.client = client).getLast?

/-- The arguments a client has called with and not yet got the result for. -/
def outstanding (history : List (Observation Client)) (client : Client) : Option (Word × Word) :=
  -- A returned result ends the call before it.
  match lastOf history client with
  | some (.ran _ a b) => some (a, b)
  | _ => none

/-- A client's own observation is its latest when it is made, and nobody else's. -/
theorem lastOf_append (history : List (Observation Client)) (seen : Observation Client)
    (client : Client) :
    lastOf (history ++ [seen]) client =
      if seen.client = client then some seen else lastOf history client := by
  -- The filter keeps the new observation at the end, or drops it.
  by_cases own : seen.client = client <;> simp [lastOf, List.filter_append, own]

/-- A call is outstanding for the client that made it. -/
theorem outstanding_ran (history : List (Observation Client)) (caller client : Client)
    (a b : Word) :
    outstanding (history ++ [.ran caller a b]) client =
      if caller = client then some (a, b) else outstanding history client := by
  -- The latest observation is the new call, or the one before it.
  unfold outstanding
  rw [lastOf_append]
  by_cases own : caller = client <;> simp [Observation.client, own]

/-- After a result was returned, nothing is outstanding for its client. -/
theorem outstanding_returned (history : List (Observation Client)) (caller client : Client)
    (ret : Word) :
    outstanding (history ++ [.returned caller ret]) client =
      if caller = client then none else outstanding history client := by
  -- The latest observation is the new result, or the one before it.
  unfold outstanding
  rw [lastOf_append]
  by_cases own : caller = client <;> simp [Observation.client, own]

/-- What a call in the queue asks of one client's future. -/
def argsFor (client : Client) : MsgVar Client → Option (Word × Word)
  -- Empty and printing messages point at no future.
  | .sub handler => if handler.fut = client then some (handler.a, handler.b) else none
  | _ => none

/-- What the function call of a client computes. -/
def subtract (args : Word × Word) : Word :=
  args.1 - args.2

/-- The server has handled a call of the client and not given its semaphore. -/
def Server.owes (client : Client) : Server Client → Bool
  | .handled fut => fut = client
  | _ => false

namespace World

/-- One client's exchange with the server, as far as the world holds it. -/
def exchange (world : World Client maxMsgs) (client : Client) : Exchange (Word × Word) Word :=
  -- The message in the hand counts as queued until its result is written.
  { asked := outstanding world.history client
    queued := world.pending.filterMap (argsFor client)
    computed := world.server.owes client
    signals := (world.futures client).sem.count
    taken := world.taken client
    ret := (world.futures client).ret }

/-- A client calls again only when it has got the result of its latest call. -/
def Alternates (world : World Client maxMsgs) : Action Client → Prop
  -- Printing calls may be made at any time, by anybody.
  | .runSub client _ _ => outstanding world.history client = none
  | _ => True

instance (world : World Client maxMsgs) : (action : Action Client) →
    Decidable (world.Alternates action)
  | .runSub _ _ _ => inferInstanceAs (Decidable (_ = none))
  | .runPrint _ | .takeSem _ | .getReturn _ | .serverGet | .serverHandle | .serverGive =>
    isTrue trivial

/-- A call asks for its own client's result, or is lost, and is nobody else's matter. -/
theorem runSub_moves {world next : World Client maxMsgs} {caller : Client} {a b : Word}
    (alternates : outstanding world.history caller = none)
    (stepped : step world (.runSub caller a b) = some next) (client : Client) :
    Exchange.Move subtract (world.exchange client) (next.exchange client) := by
  have same := (Option.some.inj stepped).symm
  obtain ⟨_, _, stored, lost⟩ := run_pending
    { world with history := world.history ++ [.ran caller a b] } (.sub ⟨caller, a, b⟩)
  rw [← same] at stored lost
  have history : next.history = world.history ++ [.ran caller a b] := by rw [same]; rfl
  have server : next.server = world.server := by rw [same]; rfl
  have futures : next.futures = world.futures := by rw [same]; rfl
  have taken : next.taken = world.taken := by rw [same]; rfl
  by_cases room : world.msgq.items.length < maxMsgs
  · have pending : next.pending = world.pending ++ [.sub ⟨caller, a, b⟩] := stored room
    by_cases own : caller = client
    · subst own
      have moved : next.exchange caller = { world.exchange caller with
          asked := some (a, b), queued := (world.exchange caller).queued ++ [(a, b)] } := by
        simp [exchange, history, outstanding_ran, pending, argsFor, server, futures, taken]
      rw [moved]
      exact .ask (a, b) alternates
    · have kept : next.exchange client = world.exchange client := by
        simp [exchange, history, outstanding_ran, pending, argsFor, server, futures, taken, own]
      exact .of_eq kept
  · -- A full queue refuses the message, and the caller does not notice.
    have pending : next.pending = world.pending := lost room
    by_cases own : caller = client
    · subst own
      have moved : next.exchange caller = { world.exchange caller with asked := some (a, b) } := by
        simp [exchange, history, outstanding_ran, pending, server, futures, taken]
      rw [moved]
      exact .lose (a, b) alternates
    · have kept : next.exchange client = world.exchange client := by
        simp [exchange, history, outstanding_ran, pending, server, futures, taken, own]
      exact .of_eq kept

/-- A printing call asks nothing of any future. -/
theorem runPrint_moves {world next : World Client maxMsgs} {a : Word}
    (stepped : step world (.runPrint a) = some next) (client : Client) :
    next.exchange client = world.exchange client := by
  -- The message that may be put has no future.
  have same := (Option.some.inj stepped).symm
  obtain ⟨_, _, stored, lost⟩ := run_pending world (.print ⟨a⟩)
  rw [← same] at stored lost
  have queued : next.pending.filterMap (argsFor client) =
      world.pending.filterMap (argsFor client) := by
    by_cases room : world.msgq.items.length < maxMsgs
    · simp [stored room, argsFor]
    · rw [lost room]
  subst same
  unfold exchange
  rw [queued]
  rfl

/-- Handling a message that names no future is nobody's matter. -/
theorem handle_keeps {world : World Client maxMsgs} {msg : MsgVar Client} {client : Client}
    (got : world.server = .got msg) (nothing : argsFor client msg = none)
    (executed : world.handle msg =
      { world with server := .waiting, executed := world.executed ++ [msg] }) :
    (world.handle msg).exchange client = world.exchange client := by
  -- The message leaves the hand, where it asked nothing of the client.
  have queued := (congrArg (List.filterMap (argsFor client)) (pending_handle got)).trans
    (List.filterMap_cons_none nothing)
  simp only [exchange, queued, got, executed]
  rfl

/-- Handling a message computes for the client whose future it names, and for nobody else. -/
theorem handle_moves {world : World Client maxMsgs} {msg : MsgVar Client}
    (got : world.server = .got msg) (client : Client) :
    Exchange.Move subtract (world.exchange client) ((world.handle msg).exchange client) := by
  -- A message is a subtraction of this client, or it is none of its business.
  have pending := pending_handle got
  cases msg with
  | sub handler =>
    by_cases own : handler.fut = client
    · subst own
      have oldest : (world.exchange handler.fut).queued = (handler.a, handler.b) ::
          (world.handle (.sub handler)).pending.filterMap (argsFor handler.fut) := by
        simp [exchange, pending, argsFor]
      have moved : (world.handle (.sub handler)).exchange handler.fut =
          { world.exchange handler.fut with
            queued := (world.handle (.sub handler)).pending.filterMap (argsFor handler.fut)
            computed := true
            ret := subtract (handler.a, handler.b) } := by
        simp [exchange, handle, SubHandler.handle, subtract, Server.owes]
      rw [moved]
      exact .compute oldest
    · have kept : (world.handle (.sub handler)).exchange client = world.exchange client := by
        simp [exchange, pending, argsFor, handle, got, own, Ne.symm own, Server.owes]
      exact .of_eq kept
  | monostate => exact .of_eq (handle_keeps got rfl rfl)
  | print handler => exact .of_eq (handle_keeps got rfl rfl)

/-- Taking a semaphore takes a signal of its own client. -/
theorem take_moves {world : World Client maxMsgs} {caller : Client} {sem : KSem}
    (took : (world.futures caller).sem.take = some sem) (client : Client) :
    Exchange.Move subtract (world.exchange client) ((world.take caller sem).exchange client) := by
  obtain ⟨signalled, count⟩ := KSem.take_eq_some took
  by_cases own : caller = client
  · subst own
    have moved : (world.take caller sem).exchange caller = { world.exchange caller with
        signals := (world.exchange caller).signals - 1, taken := true } := by
      simp [exchange, take, pending, count]
    rw [moved]
    exact .take signalled
  · -- Every client has a semaphore of its own.
    have kept : (world.take caller sem).exchange client = world.exchange client := by
      simp [exchange, take, pending, Ne.symm own]
    exact .of_eq kept

/-- Returning with a result ends the call of its own client. -/
theorem getReturn_moves {world : World Client maxMsgs} {caller : Client}
    (taken : world.taken caller = true) (client : Client) :
    Exchange.Move subtract (world.exchange client) ((world.getReturn caller).exchange client) := by
  by_cases own : caller = client
  · subst own
    have moved : (world.getReturn caller).exchange caller =
        { world.exchange caller with asked := none, taken := false } := by
      simp [exchange, getReturn, pending, outstanding_returned]
    rw [moved]
    exact .back taken
  · -- What another client has outstanding is not changed by the result.
    have kept : (world.getReturn caller).exchange client = world.exchange client := by
      simp [exchange, getReturn, pending, outstanding_returned, own, Ne.symm own]
    exact .of_eq kept

/-- Giving a semaphore signals the client whose call was handled. -/
theorem give_moves {world : World Client maxMsgs} {fut : Client}
    (handled : world.server = .handled fut) (client : Client) :
    Exchange.Move subtract (world.exchange client) ((world.give fut).exchange client) := by
  by_cases own : fut = client
  · subst own
    have moved : (world.give fut).exchange fut = { world.exchange fut with
        computed := false, signals := (world.futures fut).sem.give.count } := by
      simp [exchange, give, pending, handled, Server.inHand, Server.owes]
    rw [moved]
    -- The limit of the semaphore may swallow the signal.
    exact .signal _ (by simp [exchange, handled, Server.owes]) (KSem.give_le _)
  · have kept : (world.give fut).exchange client = world.exchange client := by
      simp [exchange, give, pending, handled, Server.inHand, Server.owes, own, Ne.symm own]
    exact .of_eq kept

/-- Every action is one move in the exchange of each client. -/
theorem step_moves {world next : World Client maxMsgs} {action : Action Client}
    (alternates : world.Alternates action) (stepped : step world action = some next)
    (client : Client) :
    Exchange.Move subtract (world.exchange client) (next.exchange client) := by
  -- Every action belongs to at most one client, and the other exchanges stay as they are.
  cases action with
  | runSub caller a b => exact runSub_moves alternates stepped client
  | runPrint a =>
    rw [runPrint_moves stepped client]
    exact .stay _
  | takeSem caller =>
    obtain ⟨sem, took, rfl⟩ := step_takeSem.mp stepped
    exact take_moves took client
  | getReturn caller =>
    obtain ⟨taken, rfl⟩ := step_getReturn.mp stepped
    exact getReturn_moves taken client
  | serverGet =>
    obtain ⟨waiting, msg, rest, got, rfl⟩ := step_serverGet.mp stepped
    have pending := pending_serverGet waiting got
    have kept : ({ world with server := .got msg, msgq := rest } : World Client maxMsgs).exchange
        client = world.exchange client := by
      simp only [exchange, pending, waiting]
      rfl
    exact .of_eq kept
  | serverHandle =>
    obtain ⟨msg, got, rfl⟩ := step_serverHandle.mp stepped
    exact handle_moves got client
  | serverGive =>
    obtain ⟨fut, handled, rfl⟩ := step_serverGive.mp stepped
    exact give_moves handled client

/-- The latest of a client's observations is its own. -/
theorem outstanding_eq_some {history : List (Observation Client)} {client : Client} {a b : Word}
    (waits : outstanding history client = some (a, b)) :
    lastOf history client = some (.ran client a b) := by
  -- Something is outstanding only when the latest observation is a call.
  unfold outstanding at waits
  split at waits
  · rename_i caller a b last
    cases waits
    -- The observation passed the filter for this client.
    have member := List.mem_of_getLast? last
    have own := (List.mem_filter.mp member).2
    have same : caller = client := of_decide_eq_true own
    rw [last, same]
  · cases waits

/-- Every returned value is the result of the latest call of its own client. -/
def OwnResults (history : List (Observation Client)) : Prop :=
  -- The history up to a result says which call was the latest by then.
  ∀ before client ret after, history = before ++ .returned client ret :: after →
    ∃ a b, lastOf before client = some (.ran client a b) ∧ ret = a - b

/-- A history stays right when what is added to it is. -/
theorem OwnResults.append {history : List (Observation Client)} (own : OwnResults history)
    (seen : Observation Client)
    (right : ∀ client ret, seen = .returned client ret →
      ∃ a b, lastOf history client = some (.ran client a b) ∧ ret = a - b) :
    OwnResults (history ++ [seen]) := by
  -- The observations before the new one are as they were.
  have each : ∀ before entry after, history = before ++ entry :: after →
      ∀ client ret, entry = .returned client ret →
        ∃ a b, lastOf before client = some (.ran client a b) ∧ ret = a - b := by
    rintro before _ after split client ret rfl
    exact own before client ret after split
  intro before client ret after split
  exact Exchange.history_append each seen right before _ after split client ret rfl

/-- Exchanges that are sound, and results that have been returned to the right calls. -/
def Sound (world : World Client maxMsgs) : Prop :=
  (∀ client, (world.exchange client).Sound subtract) ∧ OwnResults world.history

/-- Every action keeps the exchanges sound and returns results to the right calls. -/
theorem Sound.step {world next : World Client maxMsgs} {action : Action Client}
    (sound : world.Sound) (alternates : world.Alternates action)
    (stepped : step world action = some next) : next.Sound := by
  -- The exchanges follow from the moves, and the history grows by calls and by checked results.
  obtain ⟨exchanges, own⟩ := sound
  refine ⟨fun client => (exchanges client).move (step_moves alternates stepped client), ?_⟩
  cases action with
  | runSub caller a b =>
    cases stepped
    exact own.append _ (by rintro client ret ⟨⟩)
  | runPrint a =>
    cases stepped
    exact own
  | takeSem caller =>
    obtain ⟨sem, _, rfl⟩ := step_takeSem.mp stepped
    exact own
  | getReturn caller =>
    obtain ⟨taken, rfl⟩ := step_getReturn.mp stepped
    refine own.append _ ?_
    rintro client ret ⟨⟩
    -- Having taken the semaphore, the client finds the result of the call it waits for.
    obtain ⟨⟨a, b⟩, asked, result⟩ := (exchanges caller).result taken
    exact ⟨a, b, outstanding_eq_some asked, result⟩
  | serverGet =>
    obtain ⟨_, msg, rest, _, rfl⟩ := step_serverGet.mp stepped
    exact own
  | serverHandle =>
    obtain ⟨msg, _, rfl⟩ := step_serverHandle.mp stepped
    cases msg <;> exact own
  | serverGive =>
    obtain ⟨fut, _, rfl⟩ := step_serverGive.mp stepped
    exact own

/-- Before the first call nothing is on its way to anybody. -/
theorem initial_sound (memory : Client → Word) :
    (initial maxMsgs memory : World Client maxMsgs).Sound := by
  -- Whatever the memory held is allowed while nothing has been asked.
  refine ⟨fun client => .idle (memory client), ?_⟩
  intro before client ret after split
  simp [initial] at split

/--
A client that calls again only after its latest call returned gets the result of that call.

Neither the speed of the server nor a full queue can make it another one.
-/
theorem returned_ownResults {memory : Client → Word} {actions : List (Action Client)}
    {last : World Client maxMsgs}
    (ran : step.run (.initial maxMsgs memory) actions = some last)
    (alternates : step.Meets Alternates (.initial maxMsgs memory) actions) :
    ∀ before client ret after, last.history = before ++ .returned client ret :: after →
      ∃ a b, lastOf before client = some (.ran client a b) ∧ ret = a - b :=
  -- The invariant says this of the history, and something of what is on its way.
  (Machine.run_invariant_of_meets (fun _ _ _ => Sound.step) (initial_sound memory) alternates
    ran).2

/-- Two clients on a queue of one: the call of the second is lost, and the first calls twice. -/
def crowded : List (Action Nat) :=
  [.runSub 0 5 6, .runSub 1 9 2, .serverGet, .serverHandle, .serverGive, .takeSem 0,
    .getReturn 0, .runSub 0 8 3, .serverGet, .serverHandle, .serverGive, .takeSem 0, .getReturn 0]

/-- The second result of the first client is that of its second call. -/
theorem returned_ownResults_crowded :
    ∃ last : World Nat 1, step.run (initial 1 fun _ => 0) crowded = some last ∧
      last.history = [.ran 0 5 6, .ran 1 9 2, .returned 0 (5 - 6), .ran 0 8 3, .returned 0 5] ∧
      ∃ a b, lastOf [.ran 0 5 6, .ran 1 9 2, .returned 0 (5 - 6), .ran 0 8 3] 0 =
        some (Observation.ran 0 a b) ∧ (5 : Word) = a - b := by
  have completes : (step.run (initial 1 fun _ => 0) crowded).isSome := by decide
  have ran := (Option.some_get completes).symm
  -- The history ends with the return that is asked about.
  exact ⟨_, ran, rfl, returned_ownResults ran (by decide) _ 0 5 [] rfl⟩

end World
end Notus.ActiveObject
