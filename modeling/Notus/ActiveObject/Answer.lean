import Notus.ActiveObject.Conservation
import Notus.ActiveObject.Result

/-! Waiting for ever: a call that found room is answered, and one that found none never is. -/

namespace Notus.ActiveObject

variable {Client : Type*} [DecidableEq Client] {maxMsgs : Nat}

/-- The server goes on, and the client itself takes its semaphore when it can. -/
def Action.Serves (client : Client) : Action Client → Prop
  -- No other client has to do anything.
  | .serverGet | .serverHandle | .serverGive => True
  | .takeSem taker => taker = client
  | _ => False

namespace World

variable {world next : World Client maxMsgs} {client : Client}

/-- A result for the client is asked for, written, signalled or just being read. -/
inductive Coming (client : Client) (world : World Client maxMsgs) : Prop where
  | asked (msg : MsgVar Client) (pending : msg ∈ world.pending) (asks : argsFor client msg ≠ none)
  | written (owes : world.server.owes client = true)
  | signalled (given : (world.futures client).sem.count ≠ 0)
  | read (taken : world.taken client = true)

/-- A semaphore that is given can be taken. -/
def CanSignal (world : World Client maxMsgs) : Prop :=
  ∀ client, 0 < (world.futures client).sem.limit

omit [DecidableEq Client] in
/-- What is pending stays so when a message is put behind it, whether there is room or not. -/
theorem mem_run_pending {msg other : MsgVar Client} (pending : msg ∈ world.pending) :
    msg ∈ (world.run other).pending := by
  -- The new message is behind those that are pending, or nowhere.
  obtain ⟨_, _, stored, lost⟩ := run_pending world other
  by_cases room : world.msgq.items.length < maxMsgs
  · rw [stored room]
    exact List.mem_append_left _ pending
  · rwa [lost room]

/-- A call of anybody takes nothing away from what is coming. -/
theorem Coming.run {msg : MsgVar Client} (coming : world.Coming client) :
    (world.run msg).Coming client := by
  -- A call changes the queue alone.
  cases coming with
  | asked msg pending asks => exact .asked msg (mem_run_pending pending) asks
  | written owes => exact .written owes
  | signalled given => exact .signalled given
  | read taken => exact .read taken

/-- Handling a message writes what it asks for, and keeps what is asked for behind it. -/
theorem Coming.handle {msg : MsgVar Client} (got : world.server = .got msg)
    (coming : world.Coming client) : (world.handle msg).Coming client := by
  cases coming with
  | asked waiting pending asks =>
    rw [pending_handle got] at pending
    rcases List.mem_cons.mp pending with rfl | behind
    · -- The message in the hand is the one that asks for the client's result.
      cases waiting with
      | monostate | print handler => exact absurd rfl asks
      | sub handler =>
        have own : handler.fut = client := by
          by_contra other
          exact asks (by simp [argsFor, other])
        exact .written (by simp [World.handle, Server.owes, own])
    · exact .asked waiting behind asks
  | written owes =>
    -- A server with a message in its hand has no semaphore to give.
    rw [got] at owes
    cases owes
  | signalled given =>
    -- Handling writes values, and leaves every semaphore as it is.
    refine .signalled ?_
    cases msg with
    | monostate | print handler => exact given
    | sub handler =>
      by_cases own : client = handler.fut
      · subst own
        simpa [World.handle, SubHandler.handle] using given
      · simpa [World.handle, own] using given
  | read taken => exact .read (by cases msg <;> exact taken)

/-- Giving a semaphore signals the result of its client. -/
theorem Coming.give {fut : Client} (limit : world.CanSignal) (handled : world.server = .handled fut)
    (coming : world.Coming client) : (world.give fut).Coming client := by
  by_cases own : client = fut
  · subst own
    exact .signalled (by simpa [World.give] using KSem.give_ne_zero (limit client))
  · cases coming with
    -- The semaphore of somebody else is given, and nothing else changes.
    | asked msg pending asks =>
      exact .asked msg (by
        simpa [World.give, World.pending, handled, Server.inHand] using pending) asks
    | written owes => exact absurd (of_decide_eq_true (handled ▸ owes)).symm own
    | signalled given => exact .signalled (by simpa [World.give, own] using given)
    | read taken => exact .read taken

/-- Nothing but the return to the client ends what is coming to it. -/
theorem Coming.step {action : Action Client} (limit : world.CanSignal)
    (coming : world.Coming client) (unreturned : action ≠ .getReturn client)
    (stepped : step world action = some next) : next.Coming client := by
  cases action with
  | runSub caller a b =>
    cases stepped
    -- The call is noted first, and then it is put into the queue.
    have noted : ({ world with history := world.history ++ [.ran caller a b] } :
        World Client maxMsgs).Coming client := by
      cases coming with
      | asked msg pending asks => exact .asked msg pending asks
      | written owes => exact .written owes
      | signalled given => exact .signalled given
      | read taken => exact .read taken
    exact noted.run
  | runPrint a =>
    cases stepped
    exact coming.run
  | takeSem taker =>
    obtain ⟨sem, took, rfl⟩ := step_takeSem.mp stepped
    -- Whoever takes its own signal is about to read its result.
    by_cases own : client = taker
    · exact .read (by simp [take, own])
    · cases coming with
      | asked msg pending asks => exact .asked msg pending asks
      | written owes => exact .written owes
      | signalled given => exact .signalled (by simpa [take, own] using given)
      | read taken => exact .read (by simpa [take, own] using taken)
  | getReturn reader =>
    -- It is another client that returns.
    have other : client ≠ reader := fun same => unreturned (by rw [same])
    obtain ⟨_, rfl⟩ := step_getReturn.mp stepped
    cases coming with
    | asked msg pending asks => exact .asked msg pending asks
    | written owes => exact .written owes
    | signalled given => exact .signalled given
    | read taken => exact .read (by simpa [getReturn, other] using taken)
  | serverGet =>
    obtain ⟨waiting, msg, rest, got, rfl⟩ := step_serverGet.mp stepped
    cases coming with
    -- The message that asks may be the one that comes into the hand.
    | asked msg pending asks => exact .asked msg (pending_serverGet waiting got ▸ pending) asks
    | written owes =>
      rw [waiting] at owes
      cases owes
    | signalled given => exact .signalled given
    | read taken => exact .read taken
  | serverHandle =>
    obtain ⟨msg, got, rfl⟩ := step_serverHandle.mp stepped
    exact coming.handle got
  | serverGive =>
    obtain ⟨fut, handled, rfl⟩ := step_serverGive.mp stepped
    exact coming.give limit handled

/-- No step changes the limit of a semaphore. -/
theorem CanSignal.step {action : Action Client} (limit : world.CanSignal)
    (stepped : step world action = some next) : next.CanSignal := by
  -- Limits are set once, when a future is constructed.
  intro client
  cases action with
  | runSub caller a b =>
    cases stepped
    exact limit client
  | runPrint a =>
    cases stepped
    exact limit client
  | takeSem taker =>
    obtain ⟨sem, took, rfl⟩ := step_takeSem.mp stepped
    by_cases own : client = taker
    · subst own
      simpa [take, KSem.take_limit took] using limit client
    · simpa [take, own] using limit client
  | getReturn reader =>
    obtain ⟨_, rfl⟩ := step_getReturn.mp stepped
    exact limit client
  | serverGet =>
    obtain ⟨_, _, _, _, rfl⟩ := step_serverGet.mp stepped
    exact limit client
  | serverHandle =>
    obtain ⟨msg, _, rfl⟩ := step_serverHandle.mp stepped
    cases msg with
    | monostate | print handler => exact limit client
    | sub handler =>
      by_cases own : client = handler.fut
      · subst own
        simpa [handle, SubHandler.handle] using limit handler.fut
      · simpa [handle, own] using limit client
  | serverGive =>
    obtain ⟨fut, _, rfl⟩ := step_serverGive.mp stepped
    by_cases own : client = fut
    · subst own
      simpa [give, KSem.give] using limit client
    · simpa [give, own] using limit client

/-- A server in the middle of something gets back to waiting, and has no more to do than before. -/
theorem reaches_waiting (world : World Client maxMsgs) (client : Client) :
    ∃ last, step.Reaches (fun _ action => action.Serves client) world last ∧
      last.server = .waiting ∧ last.pending.length ≤ world.pending.length ∧
      (world.server.inHand ≠ [] → last.pending.length < world.pending.length) := by
  have given (busy : World Client maxMsgs) (fut : Client) (handled : busy.server = .handled fut) :
      step.Reaches (fun _ action => action.Serves client) busy (busy.give fut) ∧
        (busy.give fut).pending = busy.pending := by
    have serves : Action.Serves client .serverGive := trivial
    refine ⟨.head serves (step_serverGive.mpr ⟨fut, handled, rfl⟩) (.refl _), ?_⟩
    simp [give, pending, handled, Server.inHand]
  -- The server may have to give a semaphore, or to handle a message first.
  cases server : world.server with
  | waiting => exact ⟨world, .refl world, server, Nat.le_refl _, absurd rfl⟩
  | handled fut =>
    obtain ⟨reached, same⟩ := given world fut server
    exact ⟨_, reached, rfl, Nat.le_of_eq (congrArg List.length same), absurd rfl⟩
  | got msg =>
    have fewer : (world.handle msg).pending.length < world.pending.length := by
      rw [pending_handle server]
      exact Nat.lt_succ_self _
    have serves : Action.Serves client .serverHandle := trivial
    have handled := step_serverHandle.mpr ⟨msg, server, rfl⟩
    cases msg with
    | sub handler =>
      -- A function call has a semaphore to be given.
      obtain ⟨reached, same⟩ := given (world.handle (.sub handler)) handler.fut rfl
      rw [← same] at fewer
      exact ⟨_, .head serves handled reached, rfl, Nat.le_of_lt fewer, fun _ => fewer⟩
    | monostate | print handler =>
      exact ⟨_, .head serves handled (.refl _), rfl, Nat.le_of_lt fewer, fun _ => fewer⟩

/-- A server that is left alone with its queue empties it. -/
theorem reaches_idle (client : Client) :
    ∀ (count : Nat) (world : World Client maxMsgs), world.pending.length ≤ count →
      ∃ last, step.Reaches (fun _ action => action.Serves client) world last ∧
        last.server = .waiting ∧ last.pending = [] := by
  intro count
  -- The induction is on a bound for the messages that are pending.
  induction count with
  | zero =>
    intro world within
    obtain ⟨last, reached, waiting, fewer, _⟩ := reaches_waiting world client
    exact ⟨last, reached, waiting, List.eq_nil_of_length_eq_zero (by omega)⟩
  | succ count ih =>
    intro world within
    obtain ⟨middle, reached, waiting, fewer, _⟩ := reaches_waiting world client
    cases items : middle.msgq.items with
    | nil => exact ⟨middle, reached, waiting, by simp [pending, waiting, Server.inHand, items]⟩
    | cons msg more =>
      -- The next message comes into the hand, and is executed.
      obtain ⟨rest, got⟩ := Bounded.exists_get items
      have same := pending_serverGet waiting got
      have serves : Action.Serves client .serverGet := trivial
      have taken := step_serverGet.mpr ⟨waiting, msg, rest, got, rfl⟩
      obtain ⟨later, handled, _, _, less⟩ :=
        reaches_waiting ({ middle with server := .got msg, msgq := rest }) client
      have progress := less (List.cons_ne_nil msg [])
      rw [same] at progress
      obtain ⟨last, emptied, idle⟩ := ih later (by omega)
      exact ⟨last, (reached.trans (.head serves taken handled)).trans emptied, idle⟩

/-- What is coming to a client is returned to it, without the help of any other client. -/
theorem reaches_return (limit : world.CanSignal) (coming : world.Coming client) :
    ∃ ready, step.Reaches (fun _ action => action.Serves client) world ready ∧
      ready.taken client = true := by
  obtain ⟨idle, reached, waiting, empty⟩ := reaches_idle client _ world (Nat.le_refl _)
  -- With the queue empty and the server waiting, the result is signalled or being read.
  have kept := reached.invariant (fun _ _ _ (held : CanSignal _ ∧ Coming client _) serves stepped =>
    ⟨held.1.step stepped, held.2.step held.1 (by rintro rfl; exact serves) stepped⟩) ⟨limit, coming⟩
  cases kept.2 with
  | asked msg pending asks =>
    rw [empty] at pending
    cases pending
  | written owes =>
    rw [waiting] at owes
    cases owes
  | read taken => exact ⟨idle, reached, taken⟩
  | signalled given =>
    obtain ⟨sem, took⟩ := KSem.exists_take given
    have serves : Action.Serves client (.takeSem client) := rfl
    have last : step.Reaches (fun _ action => action.Serves client) idle (idle.take client sem) :=
      .head serves (step_takeSem.mpr ⟨sem, took, rfl⟩) (.refl _)
    exact ⟨_, reached.trans last, by simp [take]⟩

/-- What is outstanding for a client stays so until it is returned to the client. -/
theorem outstanding_step {action : Action Client} {asked : Word × Word}
    (waits : outstanding world.history client = some asked) (alternates : world.Alternates action)
    (unreturned : action ≠ .getReturn client) (stepped : step world action = some next) :
    outstanding next.history client = some asked := by
  cases action with
  | runSub caller a b =>
    -- A client that waits does not call again.
    have other : caller ≠ client := by
      rintro rfl
      have idle : outstanding world.history caller = none := alternates
      rw [waits] at idle
      cases idle
    cases stepped
    exact (outstanding_ran world.history caller client a b).trans ((if_neg other).trans waits)
  | runPrint a =>
    cases stepped
    exact waits
  | takeSem taker =>
    obtain ⟨_, _, rfl⟩ := step_takeSem.mp stepped
    exact waits
  | getReturn reader =>
    have other : reader ≠ client := fun same => unreturned (by rw [same])
    obtain ⟨_, rfl⟩ := step_getReturn.mp stepped
    exact (outstanding_returned world.history reader client _).trans ((if_neg other).trans waits)
  | serverGet =>
    obtain ⟨_, _, _, _, rfl⟩ := step_serverGet.mp stepped
    exact waits
  | serverHandle =>
    obtain ⟨msg, _, rfl⟩ := step_serverHandle.mp stepped
    cases msg <;> exact waits
  | serverGive =>
    obtain ⟨_, _, rfl⟩ := step_serverGive.mp stepped
    exact waits

/-- The server and the taking of a semaphore are not seen in the history. -/
theorem history_of_serves {action : Action Client} (serves : action.Serves client)
    (stepped : step world action = some next) : next.history = world.history := by
  -- Calls and returns alone are noted.
  cases action with
  | runSub | runPrint | getReturn => exact serves.elim
  | takeSem taker =>
    obtain ⟨_, _, rfl⟩ := step_takeSem.mp stepped
    rfl
  | serverGet =>
    obtain ⟨_, _, _, _, rfl⟩ := step_serverGet.mp stepped
    rfl
  | serverHandle =>
    obtain ⟨msg, _, rfl⟩ := step_serverHandle.mp stepped
    cases msg <;> rfl
  | serverGive =>
    obtain ⟨_, _, rfl⟩ := step_serverGive.mp stepped
    rfl

/-- A step of the server or the taking of a semaphore is no new call. -/
theorem alternates_of_serves {action : Action Client} (serves : action.Serves client) :
    world.Alternates action := by
  -- Only a call or a return can be out of turn.
  cases action with
  | runSub | runPrint | getReturn => exact serves.elim
  | takeSem | serverGet | serverHandle | serverGive => trivial

/-- A call that finds room has its result coming. -/
theorem coming_runSub {a b : Word} (room : world.HasRoom (.runSub client a b))
    (stepped : step world (.runSub client a b) = some next) : next.Coming client := by
  -- The message of the call is the last one in the queue.
  cases stepped
  obtain ⟨_, _, stored, _⟩ := run_pending
    { world with history := world.history ++ [.ran client a b] } (.sub ⟨client, a, b⟩)
  refine .asked (.sub ⟨client, a, b⟩) ?_ (by simp [argsFor])
  rw [stored room]
  exact List.mem_append_right _ (List.mem_singleton_self _)

/-- A client that has called and to which nothing is on its way. -/
structure Forsaken (client : Client) (world : World Client maxMsgs) : Prop where
  clear : (world.exchange client).Clear
  untaken : (world.exchange client).taken = false
  asked : (world.exchange client).asked ≠ none

/-- A call that finds no room is forsaken at once, because nothing was left of the one before. -/
theorem forsaken_runSub {a b : Word} (sound : world.Sound)
    (idle : outstanding world.history client = none) (full : ¬ world.HasRoom (.runSub client a b))
    (stepped : step world (.runSub client a b) = some next) : next.Forsaken client := by
  -- The call is noted, and nothing else happens in a full queue.
  have same := (Option.some.inj stepped).symm
  obtain ⟨_, _, _, lost⟩ := run_pending
    { world with history := world.history ++ [.ran client a b] } (.sub ⟨client, a, b⟩)
  rw [← same] at lost
  have history : next.history = world.history ++ [.ran client a b] := by rw [same]; rfl
  have server : next.server = world.server := by rw [same]; rfl
  have futures : next.futures = world.futures := by rw [same]; rfl
  have taken : next.taken = world.taken := by rw [same]; rfl
  have pending : next.pending = world.pending := lost full
  have moved : next.exchange client = { world.exchange client with asked := some (a, b) } := by
    simp [exchange, history, outstanding_ran, pending, server, futures, taken]
  obtain ⟨clear, untaken⟩ := (sound.1 client).clear_of_idle idle
  refine ⟨?_, ?_, ?_⟩ <;> rw [moved]
  · exact ⟨clear.queued, clear.computed, clear.signals⟩
  · exact untaken
  · exact Option.some_ne_none _

/-- A forsaken client stays so, whatever anybody does. -/
theorem Forsaken.step {action : Action Client} (forsaken : world.Forsaken client)
    (alternates : world.Alternates action) (stepped : step world action = some next) :
    next.Forsaken client := by
  -- With nothing on its way, no move of the exchange is left.
  have same := (step_moves alternates stepped client).stuck forsaken.clear forsaken.untaken
    forsaken.asked
  exact ⟨same ▸ forsaken.clear, same ▸ forsaken.untaken, same ▸ forsaken.asked⟩

/--
A client that waits for ever for its result is answered exactly when its call found room.

Then the server alone brings the result about, and otherwise nothing that anybody does ever will, as
long as clients call again only for their next result.
-/
theorem answered_iff_room {memory : Client → Word} {asking waiting last : World Client maxMsgs}
    {a b : Word} (asked : step.Reaches Alternates (.initial maxMsgs memory) asking)
    (idle : asking.Alternates (.runSub client a b))
    (called : step asking (.runSub client a b) = some waiting)
    (waits : step.Reaches (fun world action => world.Alternates action ∧ action ≠ .getReturn client)
      waiting last) :
    (asking.HasRoom (.runSub client a b) →
      ∃ ready final, step.Reaches (fun _ action => action.Serves client) last ready ∧
        step ready (.getReturn client) = some final ∧
        final.history = last.history ++ [.returned client (a - b)]) ∧
    (¬ asking.HasRoom (.runSub client a b) →
      ∀ later, step.Reaches Alternates last later →
        step later (.takeSem client) = none ∧ step later (.getReturn client) = none) := by
  have sound : asking.Sound := asked.invariant (fun _ _ _ => Sound.step) (initial_sound memory)
  have after : waiting.Sound := sound.step idle called
  have wanted : outstanding waiting.history client = some (a, b) := by
    cases called
    exact (outstanding_ran asking.history client client a b).trans (if_pos rfl)
  refine ⟨fun room => ?_, fun full later goesOn => ?_⟩
  · have limits : asking.CanSignal := asked.invariant
      (fun _ _ _ limit _ stepped => CanSignal.step limit stepped) fun _ => Nat.zero_lt_one
    -- Until the return, the call is outstanding and its result is coming.
    obtain ⟨limit, coming⟩ := waits.invariant
      (fun _ _ _ (held : CanSignal _ ∧ Coming client _) met stepped =>
        ⟨held.1.step stepped, held.2.step held.1 met.2 stepped⟩)
      ⟨limits.step called, coming_runSub room called⟩
    obtain ⟨safe, still⟩ := waits.invariant
      (fun _ _ _ (held : Sound _ ∧ outstanding (World.history _) client = some (a, b)) met
          stepped => ⟨held.1.step met.1 stepped, outstanding_step held.2 met.1 met.2 stepped⟩)
      ⟨after, wanted⟩
    obtain ⟨ready, served, taken⟩ := reaches_return limit coming
    have sure : ready.Sound := served.invariant
      (fun _ _ _ safe serves stepped => Sound.step safe (alternates_of_serves serves) stepped) safe
    have unseen := served.invariant
      (fun _ _ _ (same : World.history _ = last.history) serves stepped =>
        (history_of_serves serves stepped).trans same) rfl
    -- What the client reads is the result of the call that is outstanding.
    obtain ⟨args, outstands, result⟩ := (sure.1 client).result taken
    have own : args = (a, b) := Option.some.inj (outstands.symm.trans (by
      rw [← still, ← unseen]
      rfl))
    refine ⟨ready, _, served, step_getReturn.mpr ⟨taken, rfl⟩, ?_⟩
    have read : (ready.futures client).ret = a - b := by
      subst own
      exact result
    simp [getReturn, unseen, read]
  · -- The client was forsaken when it called, and stays so ever after.
    have forsaken := goesOn.invariant (fun _ _ _ => Forsaken.step)
      (waits.invariant (fun _ _ _ held met => Forsaken.step held met.1)
        (forsaken_runSub sound idle full called))
    have zero : (later.futures client).sem.count = 0 := forsaken.clear.signals
    have untaken : later.taken client = false := forsaken.untaken
    exact ⟨by simp [step, KSem.take, zero], by simp [step, untaken]⟩

/-- The call of one client fills a queue of one. -/
def crowdedAsking : World Nat 1 :=
  (step.run (.initial 1 fun _ => 0) [.runSub 0 5 6]).get (by decide)

/-- The call of another client finds no room there. -/
def crowdedWaiting : World Nat 1 :=
  (step crowdedAsking (.runSub 1 9 2)).get (by decide)

/-- The second of two clients that call at once waits for ever. -/
theorem answered_iff_room_crowded :
    ¬ ∃ later, step.Reaches Alternates crowdedWaiting later ∧
      (step later (.takeSem 1) ≠ none ∨ step later (.getReturn 1) ≠ none) := by
  -- The call of the second client found the queue of one full.
  have asked : step.Reaches Alternates (.initial 1 fun _ => 0) crowdedAsking :=
    ⟨[.runSub 0 5 6], rfl, by decide⟩
  have called : step crowdedAsking (.runSub 1 9 2) = some crowdedWaiting := rfl
  have waits := (answered_iff_room asked (by decide) called (.refl crowdedWaiting)).2 (by decide)
  rintro ⟨later, reached, taken | returned⟩
  · exact taken (waits later reached).1
  · exact returned (waits later reached).2

end World
end Notus.ActiveObject
