import Mathlib.Data.List.Forall2
import Notus.ActiveObject2.Timeout

/-! Results of calls that were given up come late, but never early and never out of order. -/

namespace Notus.ActiveObject2

open ActiveObject (Word)

/-- The calls among the events of a function call. -/
def runs (events : List Event) : List SubArgs :=
  events.filterMap fun event =>
    match event with
    | .ran args => some args
    | .returned _ _ => none

/-- The results of the calls, counted from one, behind what the memory held before any of them. -/
def results (memory : Word) (events : List Event) : List Word :=
  memory :: (runs events).map SubArgs.result

/-- How many of the events returned from a wait that was answered in time. -/
def answers (events : List Event) : Nat :=
  events.countP fun event =>
    match event with
    | .ran _ => false
    | .returned taken _ => taken

/-- A return delivers the result of an earlier call, which for an answered wait is late enough. -/
def Delivers (memory : Word) (before : List Event) (number : Nat) : Event → Prop
  | .ran _ => True
  | .returned taken ret =>
    (results memory before)[number]? = some ret ∧ (taken = true → answers before < number)

/-- The number that an event was given as a return. -/
def returnNumber : Event × Nat → Option Nat
  | (.ran _, _) => none
  | (.returned _ _, number) => some number

/-- What one client sees, and what the server still has to do for it. -/
structure Side where
  call : FunctionCall
  queued : List SubArgs
  owed : Bool

namespace Side

/-- What one action can do to the side of a client. -/
inductive Turn : Side → Side → Prop where
  | same (side : Side) : Turn side side
  | ran (side : Side) (args : SubArgs) :
      Turn side
        { side with
          call := { side.call with events := side.call.events ++ [.ran args] }
          queued := side.queued ++ [args] }
  /-- The queue is full, and the message is refused. -/
  | lost (side : Side) (args : SubArgs) :
      Turn side { side with call := { side.call with events := side.call.events ++ [.ran args] } }
  | waited {side : Side} (taken : Bool) {sem : KSem} (waits : side.call.waited = none)
      (took : sem.count + taken.toNat = side.call.fut.sem.count) :
      Turn side
        { side with
          call := { side.call with
            fut := { side.call.fut with sem := sem }
            waited := some taken } }
  | returned {side : Side} {taken : Bool} (waited : side.call.waited = some taken) :
      Turn side
        { side with
          call := { side.call with
            waited := none
            events := side.call.events ++ [.returned taken side.call.fut.ret] } }
  | executed {side : Side} {args : SubArgs} {rest : List SubArgs}
      (oldest : side.queued = args :: rest) (free : side.owed = false) :
      Turn side
        { call := { side.call with fut := { side.call.fut with ret := args.result } }
          queued := rest
          owed := true }
  | given {side : Side} (owed : side.owed = true) :
      Turn side
        { side with
          call := { side.call with fut := { side.call.fut with sem := side.call.fut.sem.give } }
          owed := false }

/-- The numbers of the calls behind all that one client is shown, and will be. -/
structure Lags (memory : Word) (side : Side) (log : List (Event × Nat)) (queued : List Nat)
    (held : Nat) : Prop where
  events : log.map Prod.fst = side.call.events
  shown : ∀ before entry after, log = before ++ entry :: after →
    Delivers memory (before.map Prod.fst) entry.2 entry.1
  ascending : (log.filterMap returnNumber ++ [held]).Pairwise (· ≤ ·)
  requests : List.Forall₂ (fun number (args : SubArgs) =>
    (results memory side.call.events)[number]? = some args.result) queued side.queued
  order : (held :: queued).Pairwise (· < ·)
  result : (results memory side.call.events)[held]? = some side.call.fut.ret
  enough : answers side.call.events + (side.call.waited.getD false).toNat +
    side.call.fut.sem.count + side.owed.toNat ≤ held

/-- Results stay where they are when events are added. -/
theorem results_append (memory : Word) (events more : List Event) :
    results memory (events ++ more) = results memory events ++ (runs more).map SubArgs.result := by
  -- The first result is what the memory held, and it stays in front.
  simp [results, runs]

/-- A number that refers to a result refers to it when more events follow. -/
theorem results_grown {memory : Word} {events : List Event} {number : Nat} {ret : Word}
    (stored : (results memory events)[number]? = some ret) (more : List Event) :
    (results memory (events ++ more))[number]? = some ret := by
  -- The new results come behind those that were there.
  rw [results_append, List.getElem?_append_left (List.getElem?_eq_some_iff.mp stored).1]
  exact stored

/-- A number that refers to a result is at most that of the latest call. -/
theorem number_le_of_stored {memory : Word} {events : List Event} {number : Nat} {ret : Word}
    (stored : (results memory events)[number]? = some ret) : number ≤ (runs events).length := by
  -- There is one more than there are calls, for what the memory held.
  have within := (List.getElem?_eq_some_iff.mp stored).1
  simp only [results, List.length_cons, List.length_map] at within
  omega

variable {memory : Word} {side next : Side} {log : List (Event × Nat)} {queued : List Nat}
  {held : Nat}

/-- All numbers refer to calls that were made. -/
theorem Lags.number_le (lags : side.Lags memory log queued held) {number : Nat}
    (member : number ∈ held :: queued) : number ≤ (runs side.call.events).length := by
  -- The number is the one of the result in the memory, or of a message in the queue.
  rcases List.mem_cons.mp member with rfl | waiting
  · exact number_le_of_stored lags.result
  · obtain ⟨index, inside, rfl⟩ := List.getElem_of_mem waiting
    have paired := lags.requests.get inside (lags.requests.length_eq ▸ inside)
    exact number_le_of_stored paired

/-- A call is noted with the others, and keeps all numbers, whether or not it is sent. -/
theorem Lags.call (lags : side.Lags memory log queued held) (args : SubArgs) :
    Lags memory
      { side with call := { side.call with events := side.call.events ++ [.ran args] } }
      (log ++ [(.ran args, 0)]) queued held where
  -- A call is not a return, so its number is never looked at.
  events := by simp [lags.events]
  shown := Exchange.history_append lags.shown (.ran args, 0) trivial
  ascending := by
    have same : (log ++ [(Event.ran args, 0)]).filterMap returnNumber =
        log.filterMap returnNumber := by
      simp [returnNumber]
    rw [same]
    exact lags.ascending
  requests := lags.requests.imp fun _ _ stored => results_grown stored _
  order := lags.order
  result := results_grown lags.result _
  enough := by simpa [answers] using lags.enough

/-- A call that is sent has the next number, which is greater than all others. -/
theorem Lags.send (lags : side.Lags memory log queued held) (args : SubArgs) :
    Lags memory
      { side with
        call := { side.call with events := side.call.events ++ [.ran args] }
        queued := side.queued ++ [args] }
      (log ++ [(.ran args, 0)]) (queued ++ [(runs side.call.events).length + 1]) held := by
  -- Apart from the request itself, a call that is sent is like one that is not.
  obtain ⟨events, shown, ascending, requests, order, result, enough⟩ := lags.call args
  refine ⟨events, shown, ascending, ?_, ?_, result, enough⟩
  · refine List.rel_append requests (.cons ?_ .nil)
    simp [results, runs]
  · rw [← List.cons_append, List.pairwise_append]
    refine ⟨order, List.pairwise_singleton _ _, fun number member latest last => ?_⟩
    rw [List.mem_singleton.mp last]
    exact Nat.lt_succ_of_le (lags.number_le member)

/-- A return is given the number of the result that the future holds. -/
theorem Lags.returned (lags : side.Lags memory log queued held) {taken : Bool}
    (waited : side.call.waited = some taken) :
    Lags memory
      { side with
        call := { side.call with
          waited := none
          events := side.call.events ++ [.returned taken side.call.fut.ret] } }
      (log ++ [(.returned taken side.call.fut.ret, held)]) queued held := by
  obtain ⟨events, shown, ascending, requests, order, result, enough⟩ := lags
  simp only [waited, Option.getD_some] at enough
  -- A return is not a call, so the results stay as they are.
  have same : results memory (side.call.events ++ [.returned taken side.call.fut.ret]) =
      results memory side.call.events := by
    simp [results, runs]
  refine ⟨by simp [events], ?_, ?_, by simpa [same] using requests, order,
    by simpa [same] using result, ?_⟩
  · refine Exchange.history_append shown _ ⟨by rw [events]; exact result, fun took => ?_⟩
    rw [events]
    subst took
    simp only [Bool.toNat_true] at enough
    omega
  · rw [List.filterMap_append, List.pairwise_append]
    refine ⟨ascending, List.pairwise_singleton _ _, fun number member latest last => ?_⟩
    rw [List.mem_singleton.mp last]
    rcases List.mem_append.mp member with earlier | same
    · exact (List.pairwise_append.mp ascending).2.2 number earlier held List.mem_cons_self
    · exact Nat.le_of_eq (List.mem_singleton.mp same)
  · have counted : answers (side.call.events ++ [.returned taken side.call.fut.ret]) =
        answers side.call.events + taken.toNat := by
      cases taken <;> simp [answers]
    simp only [counted, Option.getD_none, Bool.toNat_false]
    omega

/-- The oldest request has the least number, which is that of the result from then on. -/
theorem Lags.execute (lags : side.Lags memory log queued held) {args : SubArgs}
    {rest : List SubArgs} (oldest : side.queued = args :: rest) (free : side.owed = false) :
    ∃ later number, Lags memory
      { call := { side.call with fut := { side.call.fut with ret := args.result } }
        queued := rest
        owed := true }
      log later number := by
  obtain ⟨events, shown, ascending, requests, order, result, enough⟩ := lags
  rw [oldest] at requests
  cases requests with
  | @cons number _ later _ stored rest =>
    -- Requests are executed in the order of their numbers.
    have greater := (List.pairwise_cons.mp order).1 number List.mem_cons_self
    refine ⟨later, number, events, shown, ?_, rest, (List.pairwise_cons.mp order).2, stored, ?_⟩
    · obtain ⟨before, _, below⟩ := List.pairwise_append.mp ascending
      refine List.pairwise_append.mpr ⟨before, List.pairwise_singleton _ _, ?_⟩
      intro earlier member latest last
      rw [List.mem_singleton.mp last]
      have behind := below earlier member held List.mem_cons_self
      exact Nat.le_of_lt (Nat.lt_of_le_of_lt behind greater)
    · simp only [free, Bool.toNat_false, Bool.toNat_true] at enough ⊢
      omega

/-- Every turn keeps the numbers in order. -/
theorem Lags.turn (lags : side.Lags memory log queued held) (turn : side.Turn next) :
    ∃ log queued held, next.Lags memory log queued held := by
  cases turn with
  | same => exact ⟨log, queued, held, lags⟩
  | ran args => exact ⟨_, _, held, lags.send args⟩
  | lost args => exact ⟨_, queued, held, lags.call args⟩
  -- Taking the semaphore moves one from its count to the wait.
  | waited taken waits took =>
    obtain ⟨events, shown, ascending, requests, order, result, enough⟩ := lags
    refine ⟨log, queued, held, events, shown, ascending, requests, order, result, ?_⟩
    simp only [waits, Option.getD_none, Option.getD_some, Bool.toNat_false] at enough ⊢
    omega
  | @returned taken waited => exact ⟨_, queued, held, lags.returned waited⟩
  | executed oldest free =>
    obtain ⟨later, number, kept⟩ := lags.execute oldest free
    exact ⟨log, later, number, kept⟩
  -- The signal that was owed is counted, or swallowed by one that is not taken yet.
  | given owed =>
    obtain ⟨events, shown, ascending, requests, order, result, enough⟩ := lags
    refine ⟨log, queued, held, events, shown, ascending, requests, order, result, ?_⟩
    have atMost := side.call.fut.sem.give_le
    simp only [owed, Bool.toNat_true, Bool.toNat_false] at enough ⊢
    omega

end Side

namespace World

variable {Client : Type*} [DecidableEq Client] {world next : World Client}

/-- The side of one client. -/
def side (world : World Client) (client : Client) : Side where
  call := world.calls client
  queued := world.pending.filterMap (argsFor client)
  owed := world.server.owes client

/-- What is done to another function call leaves the side of a client as it is. -/
theorem side_modify_ne {client caller : Client} (different : client ≠ caller)
    (change : FunctionCall → FunctionCall) :
    (world.modify caller change).side client = world.side client := by
  -- The side of a client shows no other function call.
  have calls := modify_calls_ne world different change
  simp only [side, calls]
  rfl

/-- What is done to a client's own function call is all that is done to its side. -/
theorem side_modify_self (world : World Client) (client : Client)
    (change : FunctionCall → FunctionCall) :
    (world.modify client change).side client =
      { world.side client with call := change (world.calls client) } := by
  -- The queue and the server stay as they are.
  simp only [side, modify_calls_self]
  rfl

/-- What is a turn for the client it is done by is one for all of them. -/
theorem turn_modify {caller : Client} {change : FunctionCall → FunctionCall}
    (own : (world.side caller).Turn { world.side caller with call := change (world.calls caller) })
    (client : Client) : (world.side client).Turn ((world.modify caller change).side client) := by
  -- For everybody else it is a turn in which nothing happens.
  by_cases same : client = caller
  · subst same
    rwa [side_modify_self]
  · rw [side_modify_ne same]
    exact .same _

/-- A message that is put asks its client for something more, or it is refused. -/
theorem side_put (world : World Client) (msg : MsgVar Client) (client : Client) :
    (world.put msg).side client = { world.side client with
        queued := (world.side client).queued ++ (argsFor client msg).toList } ∨
      (world.put msg).side client = world.side client := by
  -- The queue alone decides, and it is the same for all.
  unfold side
  rcases world.pending_put msg with sent | lost
  · left
    rw [sent, List.filterMap_append]
    cases asks : argsFor client msg <;> simp [asks, put]
  · right
    rw [lost]
    rfl

/-- A call of a client is sent or lost, and it is nothing to the others. -/
theorem turn_runSub (world : World Client) (caller : Client) (args : SubArgs) (client : Client) :
    (world.side client).Turn ((world.runSub caller args).side client) := by
  have put := (world.modify caller fun call =>
    { call with events := call.events ++ [.ran args] }).side_put
      (.sub (.ofRun false caller args)) client
  unfold runSub
  by_cases own : client = caller
  · subst own
    have asks : argsFor client (.sub (.ofRun false client args)) = some args := by
      simp [argsFor, Package.ofRun]
    rw [side_modify_self, asks] at put
    -- The queue takes the message, or has no room for it.
    rcases put with sent | lost
    · rw [sent]
      exact .ran _ args
    · rw [lost]
      exact .lost _ args
  · -- A message of another client asks for nothing here.
    have asks : argsFor client (.sub (.ofRun false caller args)) = none := by
      simp [argsFor, Package.ofRun, Ne.symm own]
    rw [side_modify_ne own, asks] at put
    rcases put with sent | lost
    · rw [sent]
      simpa using Side.Turn.same (world.side client)
    · rw [lost]
      exact .same _

/-- Printing asks for nothing of anybody. -/
theorem turn_print (world : World Client) {package : Package Client true PrintArgs}
    (client : Client) : (world.side client).Turn ((world.put (.print package)).side client) := by
  -- The message may be in the queue, but it has no arguments for anyone.
  rcases world.side_put (.print package) client with sent | lost
  · rw [sent]
    simpa [argsFor] using Side.Turn.same (world.side client)
  · rw [lost]
    exact .same _

/-- A message that is executed is the oldest one of its client, and was not asked for by others. -/
theorem turn_visit {msg : MsgVar Client} (got : world.server = .got msg) (client : Client) :
    (world.side client).Turn ((world.visit msg).side client) := by
  have queued : (world.side client).queued =
      (argsFor client msg).toList ++ world.msgq.items.filterMap (argsFor client) :=
    pending_of_got got client
  have free : (world.side client).owed = false := by simp [side, got, Server.owes]
  cases asks : argsFor client msg with
  | none =>
    -- It is executed for somebody else.
    obtain ⟨owes, kept⟩ := visit_foreign world asks
    rw [asks] at queued
    have same : (world.visit msg).side client = world.side client := by
      unfold side at queued free ⊢
      simp only at queued free
      rw [kept, owes, free, pending_visit, queued]
      rfl
    rw [same]
    exact .same _
  | some args =>
    obtain ⟨executed, written⟩ := visit_own world asks
    rw [asks] at queued
    have moved : (world.visit msg).side client =
        { call := { world.calls client with
            fut := { (world.calls client).fut with ret := args.result } }
          queued := world.msgq.items.filterMap (argsFor client)
          owed := true } := by
      simp [side, pending_visit, executed, written, Server.owes]
    rw [moved]
    exact .executed queued free

/-- A semaphore is given to the client it was owed to. -/
theorem turn_give {fut : Client} (executed : world.server = .executed fut) (client : Client) :
    (world.side client).Turn ((world.give fut).side client) := by
  by_cases own : fut = client
  · subst own
    have moved : (world.give fut).side fut =
        { world.side fut with
          call := { world.calls fut with
            fut := { (world.calls fut).fut with sem := (world.calls fut).fut.sem.give } }
          owed := false } := by
      simp [side, give, pending, executed, Server.inHand, Server.owes, modify]
    have owed : (world.side fut).owed = true := by simp [side, executed, Server.owes]
    rw [moved]
    exact .given owed
  · -- The semaphore of another client is given.
    have kept : (world.give fut).calls client = world.calls client :=
      Function.update_of_ne (Ne.symm own) ..
    have same : (world.give fut).side client = world.side client := by
      unfold side
      rw [kept]
      simp [give, pending, executed, Server.inHand, Server.owes, own]
    rw [same]
    exact .same _

/-- Every action is a turn for each client. -/
theorem step_turn {action : Action Client} (stepped : step world action = some next)
    (client : Client) : (world.side client).Turn (next.side client) := by
  -- What a client does to its own function call is seen on no other side.
  cases action with
  | runSub caller args =>
    obtain ⟨_, rfl⟩ := step_runSub.mp stepped
    exact world.turn_runSub caller args client
  | runPrint caller =>
    cases stepped
    exact world.turn_print client
  | takeSem caller =>
    obtain ⟨waits, sem, took, rfl⟩ := step_takeSem.mp stepped
    obtain ⟨signalled, count⟩ := KSem.take_eq_some took
    refine turn_modify (.waited true waits ?_) client
    show sem.count + 1 = (world.calls caller).fut.sem.count
    omega
  | timeOut caller =>
    obtain ⟨waits, _, rfl⟩ := step_timeOut.mp stepped
    exact turn_modify (.waited false waits rfl) client
  | getReturn caller =>
    obtain ⟨taken, waited, rfl⟩ := step_getReturn.mp stepped
    exact turn_modify (.returned waited) client
  | serverGet =>
    obtain ⟨waiting, msg, rest, got, rfl⟩ := step_serverGet.mp stepped
    -- The message is still pending, now in the hand of the server.
    have same : ({ world with server := .got msg, msgq := rest } : World Client).side client =
        world.side client := by
      have items := Bounded.get_eq_some.mp got
      simp [side, pending, waiting, items, Server.inHand, Server.owes]
    rw [same]
    exact .same _
  | serverExecute =>
    obtain ⟨msg, got, rfl⟩ := step_serverExecute.mp stepped
    exact turn_visit got client
  | serverGive =>
    obtain ⟨fut, executed, rfl⟩ := step_serverGive.mp stepped
    exact turn_give executed client

end World

/--
However often a client gives up waiting, what it is returned comes from its calls in their order.

Every result is that of an earlier call, or what the memory held before any was executed, and
results never go back to earlier calls.

An answered wait is never too early: its result is of a call that at least as many others precede as
waits were answered before.
-/
theorem returns_ordered {Client : Type*} [DecidableEq Client] {memory : Client → Word}
    {actions : List (Action Client)} {last : World Client}
    (ran : World.step.run (.initial memory) actions = some last) (client : Client) :
    ∃ log : List (Event × Nat), log.map Prod.fst = (last.calls client).events ∧
      (log.filterMap returnNumber).Pairwise (· ≤ ·) ∧
      ∀ before event number after, log = before ++ (event, number) :: after →
        Delivers (memory client) (before.map Prod.fst) number event := by
  have begun : ∃ log queued held,
      ((World.initial memory : World Client).side client).Lags (memory client) log queued held := by
    -- What the memory held has the number zero, and nothing else is there.
    refine ⟨[], [], 0, rfl, ?_, List.pairwise_singleton _ _, .nil, List.pairwise_singleton _ _, rfl,
      Nat.le_refl 0⟩
    intro before entry after split
    simp at split
  have kept : ∀ (world : World Client) action next,
      (∃ log queued held, (world.side client).Lags (memory client) log queued held) →
        World.step world action = some next →
          ∃ log queued held, (next.side client).Lags (memory client) log queued held := by
    rintro world action next ⟨log, queued, held, lags⟩ stepped
    exact lags.turn (World.step_turn stepped client)
  obtain ⟨log, queued, held, lags⟩ := Machine.run_invariant kept begun ran
  refine ⟨log, lags.events, (List.pairwise_append.mp lags.ascending).1, ?_⟩
  intro before event number after split
  exact lags.shown before (event, number) after split

/-- One call is given up, and its result comes back from the next, before that call's own. -/
def late : List (Action Unit) :=
  [.runSub () ⟨5, 6⟩, .timeOut (), .getReturn (), .serverGet, .serverExecute, .serverGive,
    .runSub () ⟨9, 2⟩, .takeSem (), .getReturn (), .serverGet, .serverExecute, .serverGive,
    .takeSem (), .getReturn ()]

/-- What the memory held, then the first result and the second are what the client gets. -/
theorem returns_ordered_late :
    ∃ last, World.step.run (.initial fun _ : Unit => 3) late = some last ∧
      (last.calls ()).events = [.ran ⟨5, 6⟩, .returned false 3, .ran ⟨9, 2⟩,
        .returned true (5 - 6), .returned true (9 - 2)] ∧
      ∃ log : List (Event × Nat), log.map Prod.fst = (last.calls ()).events ∧
        (log.filterMap returnNumber).Pairwise (· ≤ ·) := by
  -- The signal of the first call is still there when the second one waits.
  have completes : (World.step.run (.initial fun _ : Unit => 3) late).isSome := by decide
  have ran := (Option.some_get completes).symm
  obtain ⟨log, events, ordered, _⟩ := returns_ordered ran ()
  exact ⟨_, ran, rfl, log, events, ordered⟩

end Notus.ActiveObject2
