import Notus.ActiveObject2.Timeout

/-! Calls made while something is left of an earlier one: the wait can return what was left. -/

namespace Notus.ActiveObject2

open ActiveObject (Word)

namespace World

variable {Client : Type*} [DecidableEq Client] {world next : World Client} {client : Client}

/-- The limit of a semaphore never changes. -/
theorem step_limit {action : Action Client} (stepped : step world action = some next)
    (client : Client) :
    (next.calls client).fut.sem.limit = (world.calls client).fut.sem.limit := by
  -- A wait puts back a semaphore of the same limit, and giving raises the count alone.
  have changed := step_changed stepped client
  generalize next.calls client = after at changed ⊢
  cases changed with
  | waited taken limit => exact limit
  | same | ran | returned | written | given => rfl

/-- A waiting server gets the first message of its queue. -/
theorem reaches_got_of_waiting {msg : MsgVar Client} {more : List (MsgVar Client)}
    (waiting : world.server = .waiting) (pending : world.pending = msg :: more) :
    ∃ middle, step.Reaches (Careful client) world middle ∧ middle.server = .got msg ∧
      middle.pending = world.pending ∧ middle.calls client = world.calls client := by
  -- The step of the server is a careful one, whoever the client is.
  have items : world.msgq.items = msg :: more := by
    simpa [World.pending, waiting, Server.inHand] using pending
  have bounded := world.msgq.bounded
  rw [items] at bounded
  have got : world.msgq.get = some (msg, ⟨more, Nat.le_of_succ_le bounded⟩) :=
    Bounded.get_eq_some.mpr items
  have careful : world.Careful client .serverGet := ⟨trivial, trivial⟩
  refine ⟨_, .head careful (step_serverGet.mpr ⟨waiting, msg, _, got, rfl⟩) (.refl _), rfl, ?_, rfl⟩
  rw [pending]
  rfl

/-- A server with a message to execute gets to it. -/
theorem reaches_got {msg : MsgVar Client} {more : List (MsgVar Client)}
    (pending : world.pending = msg :: more) (nothing : world.server.owes client = false) :
    ∃ middle, step.Reaches (Careful client) world middle ∧ middle.server = .got msg ∧
      middle.pending = world.pending ∧ middle.calls client = world.calls client := by
  cases server : world.server with
  | waiting => exact reaches_got_of_waiting server pending
  | got held =>
    have same : held = msg := by
      simp only [World.pending, server, Server.inHand] at pending
      exact (List.cons.inj pending).1
    exact ⟨world, .refl world, by rw [server, same], rfl, rfl⟩
  | executed fut =>
    -- The semaphore of somebody else is given first.
    have other : client ≠ fut := by
      rw [server] at nothing
      exact Ne.symm (of_decide_eq_false nothing)
    have kept : (world.give fut).pending = world.pending := by
      simp [World.pending, give, server, Server.inHand]
    have careful : world.Careful client .serverGive := ⟨trivial, trivial⟩
    have gives : step world .serverGive = some (world.give fut) :=
      step_serverGive.mpr ⟨fut, server, rfl⟩
    have waiting : (world.give fut).server = .waiting := rfl
    obtain ⟨middle, reached, got, same, calls⟩ :=
      reaches_got_of_waiting waiting (kept.trans pending)
    refine ⟨middle, .head careful gives reached, got, same.trans kept, calls.trans ?_⟩
    rw [give_calls, modify_calls_ne world other]

/-- A server with a message for a client behind others gets to execute it. -/
theorem reaches_executed {msg : MsgVar Client} {more : List (MsgVar Client)} {args : SubArgs}
    (asks : argsFor client msg = some args) :
    ∀ (front : List (MsgVar Client)) (world : World Client), world.pending = front ++ msg :: more →
      (∀ other ∈ front, argsFor client other = none) → world.server.owes client = false →
      ∃ last, step.Reaches (Careful client) world last ∧ last.server = .executed client ∧
        last.calls client = { world.calls client with
          fut := { (world.calls client).fut with ret := args.result } } := by
  -- Every message in front of it is executed first, one after the other.
  intro front
  induction front with
  | nil =>
    intro world pending _ nothing
    obtain ⟨middle, reached, got, _, calls⟩ := reaches_got pending nothing
    have careful : middle.Careful client .serverExecute := ⟨trivial, trivial⟩
    have stepped : step middle .serverExecute = some (middle.visit msg) :=
      step_serverExecute.mpr ⟨msg, got, rfl⟩
    obtain ⟨executed, written⟩ := visit_own middle asks
    rw [calls] at written
    exact ⟨_, reached.trans (.head careful stepped (.refl _)), executed, written⟩
  | cons first front ih =>
    intro world pending others nothing
    obtain ⟨middle, reached, got, same, calls⟩ := reaches_got pending nothing
    have careful : middle.Careful client .serverExecute := ⟨trivial, trivial⟩
    have stepped : step middle .serverExecute = some (middle.visit first) :=
      step_serverExecute.mpr ⟨first, got, rfl⟩
    have behind : middle.msgq.items = front ++ msg :: more := by
      rw [pending, World.pending, got] at same
      exact (List.cons.inj same).2
    obtain ⟨free, kept⟩ := visit_foreign middle (others first List.mem_cons_self)
    obtain ⟨last, executes, executed, written⟩ := ih (middle.visit first)
      ((pending_visit middle first).trans behind)
      (fun other member => others other (List.mem_cons_of_mem _ member)) free
    rw [kept, calls] at written
    exact ⟨last, reached.trans (.head careful stepped executes), executed, written⟩

/-- A result that was written is signalled. -/
theorem reaches_given (executed : world.server = .executed client)
    (limit : 0 < (world.calls client).fut.sem.limit) :
    ∃ last, step.Reaches (Careful client) world last ∧
      (last.calls client).fut.sem.count ≠ 0 ∧
      (last.calls client).fut.ret = (world.calls client).fut.ret ∧
      (last.calls client).waited = (world.calls client).waited ∧
      (last.calls client).events = (world.calls client).events := by
  -- The step of the server is a careful one, and gives a semaphore that has a limit.
  have careful : world.Careful client .serverGive := ⟨trivial, trivial⟩
  refine ⟨world.give client,
    .head careful (step_serverGive.mpr ⟨client, executed, rfl⟩) (.refl _), ?_⟩
  rw [give_calls, modify_calls_self]
  exact ⟨KSem.give_ne_zero limit, rfl, rfl, rfl⟩

/-- A server that owes a client its semaphore has executed a message of this client. -/
theorem executed_of_owes {server : Server Client} (owes : server.owes client = true) :
    server = .executed client := by
  -- The other states of the server owe nothing to anybody.
  cases server with
  | executed fut => rw [of_decide_eq_true owes]
  | waiting | got msg => cases owes

/-- A pending message stays where it is when another call is made. -/
theorem pending_runSub {front more : List (MsgVar Client)} {msg : MsgVar Client} (args : SubArgs)
    (pending : world.pending = front ++ msg :: more) :
    ∃ more, (world.runSub client args).pending = front ++ msg :: more := by
  -- The new message can only be behind it.
  rcases pending_put (world.modify client fun call =>
    { call with events := call.events ++ [.ran args] }) (.sub (.ofRun false client args))
    with sent | lost
  · refine ⟨more ++ [.sub (.ofRun false client args)], sent.trans ?_⟩
    show world.pending ++ _ = _
    rw [pending, List.append_assoc, List.cons_append]
  · exact ⟨more, lost.trans pending⟩

/-- What is left of earlier calls is signalled after the next call, with a result it decides. -/
theorem reaches_leftover (limit : 0 < (world.calls client).fut.sem.limit)
    (left : ¬ (world.exchange client).Clear) :
    ∃ ret, ∀ args, ∃ last, step.Reaches (Careful client) (world.runSub client args) last ∧
      (last.calls client).fut.sem.count ≠ 0 ∧ (last.calls client).fut.ret = ret ∧
      (last.calls client).waited = (world.calls client).waited ∧
      (last.calls client).events = (world.calls client).events ++ [.ran args] := by
  have called : ∀ args, (world.runSub client args).calls client =
      { world.calls client with events := (world.calls client).events ++ [.ran args] } := by
    intro args
    rw [runSub_calls, modify_calls_self]
  by_cases signalled : (world.calls client).fut.sem.count = 0
  · by_cases computed : world.server.owes client = true
    · -- The result of the earlier call is written, and is signalled next.
      refine ⟨(world.calls client).fut.ret, fun args => ?_⟩
      have before := called args
      have executed : (world.runSub client args).server = .executed client :=
        executed_of_owes computed
      obtain ⟨last, reached, given, ret, waited, events⟩ :=
        reaches_given executed (by rw [before]; exact limit)
      rw [before] at ret waited events
      exact ⟨last, reached, given, ret, waited, events⟩
    · -- A message of an earlier call is pending, and is executed before the new one.
      cases queued : world.pending.filterMap (argsFor client) with
      | nil => exact absurd ⟨queued, Bool.eq_false_iff.mpr computed, signalled⟩ left
      | cons first rest =>
        obtain ⟨front, msg, more, pending, others, asks, _⟩ := List.filterMap_eq_cons_iff.mp queued
        refine ⟨first.result, fun args => ?_⟩
        have before := called args
        obtain ⟨more, pending⟩ := pending_runSub args pending
        obtain ⟨middle, executes, executed, written⟩ :=
          reaches_executed asks front _ pending others (Bool.eq_false_iff.mpr computed)
        rw [before] at written
        obtain ⟨last, gives, given, ret, waited, events⟩ :=
          reaches_given executed (by rw [written]; exact limit)
        rw [written] at ret waited events
        exact ⟨last, executes.trans gives, given, ret, waited, events⟩
  · -- The semaphore was given for an earlier call and never taken.
    refine ⟨(world.calls client).fut.ret, fun args => ⟨_, .refl _, ?_⟩⟩
    rw [called]
    exact ⟨signalled, rfl, rfl, rfl⟩

/-- A result that is there is returned, and it is wrong where it is not that of the latest call. -/
theorem reaches_wrong {args : SubArgs} {events : List Event}
    (given : (world.calls client).fut.sem.count ≠ 0) (waits : (world.calls client).waited = none)
    (ran : (world.calls client).events = events ++ [.ran args])
    (other : (world.calls client).fut.ret ≠ args.result) :
    ∃ last, step.Reaches (Careful client) world last ∧
      ¬ OwnResults (last.calls client).events := by
  obtain ⟨sem, took⟩ := KSem.exists_take given
  have asked : (world.calls client).asked = some args := by
    simp [FunctionCall.asked, ran]
  have taking : world.Careful client (.takeSem client) :=
    ⟨fun _ => by rw [asked]; exact Option.some_ne_none args, trivial⟩
  have waited : ((world.endWait client true sem).calls client).waited = some true := by
    rw [endWait, modify_calls_self]
  have returning : (world.endWait client true sem).Careful client (.getReturn client) :=
    ⟨trivial, trivial⟩
  refine ⟨(world.endWait client true sem).getReturn client true,
    .head taking (step_takeSem.mpr ⟨waits, sem, took, rfl⟩)
      (.head returning (step_getReturn.mpr ⟨true, waited, rfl⟩) (.refl _)), fun own => ?_⟩
  -- The latest call before the result is the one whose result it is not.
  have history : (((world.endWait client true sem).getReturn client true).calls client).events =
      (events ++ [.ran args]) ++ .returned true (world.calls client).fut.ret :: [] := by
    rw [getReturn, modify_calls_self, endWait, modify_calls_self, ran]
  obtain ⟨found, last, result⟩ := own _ _ _ history
  rw [List.getLast?_concat, Option.some.injEq, Event.ran.injEq] at last
  rw [last] at other
  exact other result

/-- No word is the result of all calls. -/
theorem exists_other (ret : Word) : ∃ args : SubArgs, ret ≠ args.result := by
  -- Subtracting one from a word changes it.
  refine ⟨⟨ret, 1⟩, ?_⟩
  show ret ≠ ret - 1
  bv_omega

/--
A function call whose calls and waits alternate returns its own results.

Every call is made when nothing is left of earlier ones, and one made otherwise can go wrong.
-/
theorem ownResults_settled {memory : Client → Word} {last : World Client}
    (reached : step.Reaches (Careful client) (.initial memory) last) :
    OwnResults (last.calls client).events ∧
      ((last.calls client).asked = none → (last.calls client).waited = none →
        ((last.exchange client).Clear ↔
          ∀ args final, step.Reaches (Careful client) (last.runSub client args) final →
            OwnResults (final.calls client).events)) := by
  have sound : ∀ {last : World Client}, step.Reaches (Careful client) (.initial memory) last →
      OwnResults (last.calls client).events := fun reached =>
    (reached.invariant (fun _ _ _ sound => sound.step) (sound_initial memory client)).2
  have kept : ∀ (world : World Client) action next, (world.calls client).fut.sem.limit = 1 →
      world.Careful client action → step world action = some next →
        (next.calls client).fut.sem.limit = 1 :=
    fun _ _ _ limit _ stepped => (step_limit stepped client).trans limit
  have limit := reached.invariant kept rfl
  refine ⟨sound reached, fun idle waits => ⟨fun clear args final later => ?_, fun always => ?_⟩⟩
  · have careful : last.Careful client (.runSub client args) := ⟨fun _ => idle, fun _ => clear⟩
    exact sound (reached.trans (.head careful (step_runSub.mpr ⟨waits, rfl⟩) later))
  · by_contra left
    -- Arguments with another result make what was left wrong.
    obtain ⟨ret, leftover⟩ := reaches_leftover (limit.symm ▸ Nat.one_pos) left
    obtain ⟨args, other⟩ := exists_other ret
    obtain ⟨middle, signals, given, same, waited, events⟩ := leftover args
    obtain ⟨final, returns, wrong⟩ :=
      reaches_wrong given (waited.trans waits) events (same.symm ▸ other)
    exact wrong (always args final (signals.trans returns))

/-- Another client gives up, and the results of a client that does not are its own. -/
theorem ownResults_settled_twice :
    ∃ last : World (Fin 2),
      (last.calls 0).events =
        [.ran ⟨5, 6⟩, .returned true (5 - 6), .ran ⟨9, 2⟩, .returned true 7] ∧
      OwnResults (last.calls 0).events ∧ (last.exchange 0).Clear ∧
      ∀ args final, step.Reaches (Careful 0) (last.runSub 0 args) final →
        OwnResults (final.calls 0).events := by
  -- Client one gives up and prints, while client zero calls twice and waits.
  let actions : List (Action (Fin 2)) :=
    [.runSub 1 ⟨3, 4⟩, .runSub 0 ⟨5, 6⟩, .timeOut 1, .getReturn 1, .serverGet, .serverExecute,
      .serverGive, .serverGet, .serverExecute, .runPrint 1, .serverGive, .takeSem 0, .getReturn 0,
      .runSub 0 ⟨9, 2⟩, .serverGet, .serverExecute, .serverGet, .serverExecute, .serverGive,
      .takeSem 0, .getReturn 0]
  have completes : (step.run (.initial fun _ : Fin 2 => 0) actions).isSome := by decide
  have ran := (Option.some_get completes).symm
  have reached : step.Reaches (Careful 0) (.initial fun _ : Fin 2 => 0) _ :=
    ⟨actions, ran, by decide⟩
  obtain ⟨own, continues⟩ := ownResults_settled reached
  exact ⟨_, rfl, own, ⟨rfl, rfl, rfl⟩, (continues rfl rfl).mp ⟨rfl, rfl, rfl⟩⟩

/-- A call times out and is answered later, and the next call returns with that answer. -/
theorem not_ownResults_late :
    ¬ ∀ (memory : Unit → Word) (actions : List (Action Unit)) (last : World Unit),
      step.run (.initial memory) actions = some last →
        step.Meets (Alternates ()) (.initial memory) actions →
          OwnResults (last.calls ()).events := by
  -- The second wait takes the signal that the first one did not wait for.
  intro claimed
  let actions : List (Action Unit) :=
    [.runSub () ⟨5, 6⟩, .timeOut (), .getReturn (), .serverGet, .serverExecute, .serverGive,
      .runSub () ⟨9, 2⟩, .takeSem (), .getReturn ()]
  have completes : (step.run (.initial fun _ : Unit => 0) actions).isSome := by decide
  have own := claimed _ actions _ (Option.some_get completes).symm (by decide)
  obtain ⟨args, last, result⟩ :=
    own [.ran ⟨5, 6⟩, .returned false 0, .ran ⟨9, 2⟩] (5 - 6) [] rfl
  cases last
  exact absurd result (by decide)

end World
end Notus.ActiveObject2
