import Notus.ActiveObject

/-! Conservation of calls: executed, in the server's hand or in the queue, unless it was full. -/

namespace Notus.ActiveObject

variable {Client : Type*}

namespace World

variable {maxMsgs : Nat}

/-- Every call that has returned is executed or pending, once and in order. -/
def Conserved (world : World Client maxMsgs) : Prop :=
  -- Equality of lists says that nothing is lost, repeated or reordered.
  world.calls = world.executed ++ world.pending

/-- A call is made while the queue has room for its message. -/
def HasRoom (world : World Client maxMsgs) : Action Client → Prop
  -- Only the two calls put a message into the queue.
  | .runSub _ _ _ | .runPrint _ => world.msgq.items.length < maxMsgs
  | _ => True

instance (world : World Client maxMsgs) : (action : Action Client) →
    Decidable (world.HasRoom action)
  | .runSub _ _ _ | .runPrint _ => inferInstanceAs (Decidable (_ < _))
  | .takeSem _ | .getReturn _ | .serverGet | .serverHandle | .serverGive => isTrue trivial

/-- Before the first call there is nothing to lose. -/
theorem initial_conserved (memory : Client → Word) :
    (initial maxMsgs memory : World Client maxMsgs).Conserved := rfl

/-- A call is kept behind the others or lost as a whole, whatever its handler is. -/
theorem run_conserves (world : World Client maxMsgs) (msg : MsgVar Client) :
    (world.msgq.items.length < maxMsgs ∧ ∃ added, (world.run msg).calls = world.calls ++ added ∧
        (world.run msg).executed ++ (world.run msg).pending =
          world.executed ++ world.pending ++ added) ∨
      (¬ world.msgq.items.length < maxMsgs ∧
        (world.run msg).calls.length = world.calls.length + 1 ∧
        (world.run msg).executed ++ (world.run msg).pending = world.executed ++ world.pending) := by
  -- Both cases record the call, and only one of them has the message pending.
  obtain ⟨recorded, kept, stored, lost⟩ := run_pending world msg
  by_cases room : world.msgq.items.length < maxMsgs
  · exact .inl ⟨room, [msg], recorded, by rw [kept, stored room, List.append_assoc]⟩
  · exact .inr ⟨room, by rw [recorded, List.length_append]; rfl, by rw [kept, lost room]⟩

variable [DecidableEq Client]

/-- A step keeps every message and adds its own, or is a call for which there was no room. -/
theorem step_conserves {world next : World Client maxMsgs} {action : Action Client}
    (stepped : step world action = some next) :
    (world.HasRoom action ∧ ∃ added, next.calls = world.calls ++ added ∧
        next.executed ++ next.pending = world.executed ++ world.pending ++ added) ∨
      (¬ world.HasRoom action ∧ next.calls.length = world.calls.length + 1 ∧
        next.executed ++ next.pending = world.executed ++ world.pending) := by
  -- Calls add to one side or to both, and the server moves messages along within one side.
  cases action with
  | runSub client a b =>
    cases stepped
    -- The message is put into the queue of a world that differs in its history only.
    exact run_conserves { world with history := world.history ++ [.ran client a b] } _
  | runPrint a =>
    cases stepped
    exact run_conserves world _
  | takeSem client =>
    obtain ⟨sem, _, rfl⟩ := step_takeSem.mp stepped
    exact .inl ⟨trivial, [], by simp [pending, take]⟩
  | getReturn client =>
    obtain ⟨_, rfl⟩ := step_getReturn.mp stepped
    exact .inl ⟨trivial, [], by simp [pending, getReturn]⟩
  | serverGet =>
    -- The first message of the queue comes into the hand, which was empty.
    obtain ⟨waiting, msg, rest, got, rfl⟩ := step_serverGet.mp stepped
    exact .inl ⟨trivial, [], by simp, by simp [pending_serverGet waiting got]⟩
  | serverHandle =>
    -- The message in the hand is executed next.
    obtain ⟨msg, got, rfl⟩ := step_serverHandle.mp stepped
    exact .inl ⟨trivial, [], by cases msg <;> simp [handle],
      by rw [pending_handle got]; cases msg <;> simp [handle]⟩
  | serverGive =>
    obtain ⟨fut, handled, rfl⟩ := step_serverGive.mp stepped
    exact .inl ⟨trivial, [], by simp [pending, give, handled, Server.inHand]⟩

/-- What is conserved stays conserved by a step that finds room for its call. -/
theorem Conserved.step {world next : World Client maxMsgs} {action : Action Client}
    (conserved : world.Conserved) (room : world.HasRoom action)
    (stepped : step world action = some next) : next.Conserved := by
  -- With room for the call, both sides grow by the same messages.
  rcases step_conserves stepped with ⟨_, added, calls, moved⟩ | ⟨full, _⟩
  · show next.calls = next.executed ++ next.pending
    rw [calls, conserved, moved]
  · exact absurd room full

/-- Calls that were lost are never found again. -/
theorem step_lost {world next : World Client maxMsgs} {action : Action Client} {lost : Nat}
    (missing : (world.executed ++ world.pending).length + lost ≤ world.calls.length)
    (stepped : step world action = some next) :
    (next.executed ++ next.pending).length + lost ≤ next.calls.length := by
  -- A step adds at least as many calls as messages to account for them.
  rcases step_conserves stepped with ⟨_, added, calls, moved⟩ | ⟨_, calls, moved⟩
  · simp only [calls, moved, List.length_append] at missing ⊢
    omega
  · rw [calls, moved]
    omega

/-- Along a run there are at least as many calls as messages to account for them. -/
theorem run_lost {actions : List (Action Client)} {world last : World Client maxMsgs} {lost : Nat}
    (missing : (world.executed ++ world.pending).length + lost ≤ world.calls.length)
    (ran : World.step.run world actions = some last) :
    (last.executed ++ last.pending).length + lost ≤ last.calls.length :=
  -- A step makes no more messages than calls.
  Machine.run_invariant (fun _ _ _ => step_lost) missing ran

/--
No call is lost exactly in the runs whose calls all find room in the queue.

The second part counts: calls that have returned are as many as messages executed, in the server's
hand and in the queue.
-/
theorem conserved_iff {memory : Client → Word} {actions : List (Action Client)}
    {last : World Client maxMsgs}
    (ran : World.step.run (.initial maxMsgs memory) actions = some last) :
    (last.Conserved ↔ World.step.Meets HasRoom (.initial maxMsgs memory) actions) ∧
      (last.calls.length =
          last.executed.length + last.server.inHand.length + last.msgq.items.length ↔
        World.step.Meets HasRoom (.initial maxMsgs memory) actions) := by
  -- With room for every call the order is kept, and with it the count.
  have kept : World.step.Meets HasRoom (.initial maxMsgs memory) actions → last.Conserved :=
    fun met => Machine.run_invariant_of_meets (fun _ _ _ => Conserved.step)
      (initial_conserved memory) met ran
  have counted : last.Conserved → last.calls.length =
      last.executed.length + last.server.inHand.length + last.msgq.items.length := by
    intro conserved
    have lengths := congrArg List.length conserved
    simpa [pending, Nat.add_assoc] using lengths
  have meets : last.calls.length =
      last.executed.length + last.server.inHand.length + last.msgq.items.length →
        World.step.Meets HasRoom (.initial maxMsgs memory) actions := by
    intro balanced
    by_contra refused
    -- The first call without room is lost, and the count stays short by it from there on.
    obtain ⟨before, action, after, middle, next, _, reached, met, full, stepped, later⟩ :=
      Machine.exists_first_violation ran refused
    have conserved : middle.Conserved :=
      Machine.run_invariant_of_meets (fun _ _ _ => Conserved.step) (initial_conserved memory)
        met reached
    rcases step_conserves stepped with ⟨room, _⟩ | ⟨_, calls, moved⟩
    · exact full room
    · have missing : (next.executed ++ next.pending).length + 1 ≤ next.calls.length :=
        Nat.le_of_eq (by rw [calls, moved, conserved])
      have short := run_lost missing later
      simp only [pending, List.length_append] at short
      omega
  exact ⟨⟨fun conserved => meets (counted conserved), kept⟩, meets, fun met => counted (kept met)⟩

/-- A call that was handled and one that waits, in a queue of two. -/
def served : World Nat 2 :=
  { initial 2 (fun _ => 0) with
    futures := Function.update (fun _ => .construct 0) 0 { Future.construct 0 with ret := 5 - 6 }
    msgq := (kMsgqPut .empty (.print ⟨7⟩)).1
    server := .handled 0
    calls := [.sub ⟨0, 5, 6⟩, .print ⟨7⟩]
    executed := [.sub ⟨0, 5, 6⟩]
    history := [.ran 0 5 6] }

/-- Two calls into a queue of two both find room. -/
theorem conserved_iff_served : served.Conserved := by
  -- The server gets the first message before the second call is made.
  have ran : World.step.run (.initial 2 fun _ => 0)
      [.runSub 0 5 6, .serverGet, .runPrint 7, .serverHandle] = some served := rfl
  exact (conserved_iff ran).1.mpr (by decide)

/-- An eleventh call finds the queue of ten full and is neither executed nor pending. -/
theorem conserved_full_queue :
    ∃ last : World Nat 10, World.step.run (.initial 10 fun _ => 0)
        (List.replicate 11 (.runPrint 5)) = some last ∧ last.calls.length = 11 ∧
      last.executed.length + last.server.inHand.length + last.msgq.items.length = 10 ∧
      ¬ last.Conserved := by
  -- Nobody gets a message out of the queue before the eleventh call.
  refine ⟨_, rfl, rfl, rfl, fun conserved => ?_⟩
  have counted := congrArg List.length conserved
  exact absurd counted (by decide)

end World
end Notus.ActiveObject
