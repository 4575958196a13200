import Mathlib.Algebra.BigOperators.Ring.Finset
import Mathlib.Algebra.Order.BigOperators.Group.Finset
import Notus.ZBusWrapperWithReply.Delivery

/-! Progress: the steps that follow a send come to an end, and then all replies were returned. -/

namespace Notus.ZBusWrapperWithReply

/-- The step is on the way of a message or its replies, and does not begin or give up anything. -/
def Action.Goes {MessageType RetType : Type*} {subscribers : Nat} :
    Action MessageType RetType subscribers → Prop
  | .purge _ | .publishFails | .timeout => False
  | .publish | .listen | .finish | .take _ | .setReply _ _ | .getReply => True

instance {MessageType RetType : Type*} {subscribers : Nat} :
    (action : Action MessageType RetType subscribers) → Decidable action.Goes
  | .purge _ | .publishFails | .timeout => isFalse not_false
  | .publish | .listen | .finish | .take _ | .setReply _ _ | .getReply => isTrue trivial

/-- The steps that a publisher leads to, when each of its listeners is still to be called. -/
def Publisher.work {MessageType : Type*} {subscribers : Nat} :
    Publisher MessageType subscribers → Nat
  | .idle => 0
  | .purged _ => 4 * subscribers + 2
  -- A message is copied, taken, answered, and its reply returned.
  | .publishing _ observers => 4 * observers.length + 1

/-- What changes in one place of a sum changes the sum by as much. -/
theorem sum_le_of_apart {Index : Type*} [Fintype Index] [DecidableEq Index]
    {before after : Index → Nat} {less more : Nat} (place : Index)
    (others : ∀ other ≠ place, after other = before other)
    (own : after place + less ≤ before place + more) :
    ∑ other, after other + less ≤ ∑ other, before other + more := by
  -- The rest of the sum is the same before and after.
  have rest : ∑ other ∈ Finset.univ.erase place, after other =
      ∑ other ∈ Finset.univ.erase place, before other :=
    Finset.sum_congr rfl fun other member => others other (Finset.ne_of_mem_erase member)
  rw [← Finset.add_sum_erase _ after (Finset.mem_univ place),
    ← Finset.add_sum_erase _ before (Finset.mem_univ place), rest]
  omega

/-- A list is as long as its items occur in it. -/
theorem sum_count {Item : Type*} [Fintype Item] [DecidableEq Item] (list : List Item) :
    ∑ item, list.count item = list.length := by
  -- The library counts multisets in this way.
  have total := @Multiset.sum_count_eq_card Item _ Finset.univ list fun _ _ => Finset.mem_univ _
  simpa using total

namespace World

variable {MessageType RetType : Type*} {subscribers : Nat} {capacity : Fin subscribers → Nat}
  {msgqSize : Nat} {world next : World MessageType RetType capacity msgqSize}

/-- The steps that a subscriber leads to with the messages that reached it. -/
def carried (world : World MessageType RetType capacity msgqSize) (subscriber : Fin subscribers) :
    Nat :=
  3 * (world.inbox subscriber).items.length + 2 * (world.hand subscriber).toList.length

/-- The steps that are left until all replies have been returned. -/
def work (world : World MessageType RetType capacity msgqSize) : Nat :=
  world.publisher.work + ∑ subscriber, world.carried subscriber + world.msgq.items.length

/-- A put adds one message at most. -/
theorem length_kMsgqPut_le {Msg : Type*} {maxMsgs : Nat} (msgq : KMsgq Msg maxMsgs) (msg : Msg) :
    (kMsgqPut msgq msg).1.items.length ≤ msgq.items.length + 1 := by
  -- A full queue stays as it is.
  rcases kMsgqPut_cases msgq msg with ⟨_, _, stored⟩ | ⟨_, _, same⟩
  · simp [stored]
  · rw [same]
    exact Nat.le_succ _

/-- A listener takes one observer from the publication, for at most one message in an inbox. -/
theorem work_listen {message : MessageType} {subscriber : Fin subscribers}
    {observers : List (Fin subscribers)}
    (publishing : world.publisher = .publishing message (subscriber :: observers)) :
    (world.listen message subscriber observers).work < world.work := by
  -- A message that is copied has three steps before it, and a turn that is taken had four.
  have copied := length_kMsgqPut_le (world.inbox subscriber)
    { message := message, round := world.sent.length }
  have more : ∑ other, (world.listen message subscriber observers).carried other + 0 ≤
      ∑ other, world.carried other + 3 := by
    refine sum_le_of_apart subscriber (fun other apart => ?_) ?_
    · simp [carried, World.listen, Function.update_of_ne apart]
    · simp only [carried, World.listen, Function.update_self]
      omega
  have fewer : (world.listen message subscriber observers).publisher.work + 4 =
      world.publisher.work := by
    simp only [World.listen, publishing, Publisher.work, List.length_cons]
    omega
  have same : (world.listen message subscriber observers).msgq = world.msgq := rfl
  simp only [work, same]
  omega

/-- A message in the hand of a subscriber is closer to its reply than one in the inbox. -/
theorem work_take {subscriber : Fin subscribers} {message : SubscriberWithMsgQ MessageType}
    {rest : KMsgq (SubscriberWithMsgQ MessageType) (capacity subscriber)}
    (idle : world.hand subscriber = none)
    (got : (world.inbox subscriber).get = some (message, rest)) :
    (world.take subscriber message rest).work < world.work := by
  -- The inbox has one message less, and the hand has it.
  have items := congrArg List.length (Bounded.get_eq_some.mp got)
  have less : ∑ other, (world.take subscriber message rest).carried other + 1 ≤
      ∑ other, world.carried other + 0 := by
    refine sum_le_of_apart subscriber (fun other apart => ?_) ?_
    · simp [carried, World.take, Function.update_of_ne apart]
    · simp only [carried, World.take, Function.update_self, idle, Option.toList_some,
        Option.toList_none, List.length_cons, List.length_nil] at items ⊢
      omega
  have publisher : (world.take subscriber message rest).publisher = world.publisher := rfl
  have msgq : (world.take subscriber message rest).msgq = world.msgq := rfl
  simp only [work, publisher, msgq]
  omega

/-- A reply in the queue only has to be returned. -/
theorem work_setReply {subscriber : Fin subscribers} {message : SubscriberWithMsgQ MessageType}
    (held : world.hand subscriber = some message) (ret : RetType) :
    (world.setReply subscriber message ret).work < world.work := by
  -- The hand is empty afterwards, and the queue has at most one reply more.
  have put := length_kMsgqPut_le world.msgq { ret := ret, round := message.round }
  have less : ∑ other, (world.setReply subscriber message ret).carried other + 2 ≤
      ∑ other, world.carried other + 0 := by
    refine sum_le_of_apart subscriber (fun other apart => ?_) ?_
    · simp [carried, World.setReply, Function.update_of_ne apart]
    · simp only [carried, World.setReply, Function.update_self, held, Option.toList_some,
        Option.toList_none, List.length_cons, List.length_nil]
      omega
  have publisher : (world.setReply subscriber message ret).publisher = world.publisher := rfl
  have msgq : (world.setReply subscriber message ret).msgq =
      (kMsgqPut world.msgq { ret := ret, round := message.round }).1 := rfl
  simp only [work, publisher, msgq]
  omega

/-- Every step on the way takes something of what is left to do. -/
theorem work_decreases {action : Action MessageType RetType subscribers} (goes : action.Goes)
    (stepped : World.step world action = some next) : next.work < world.work := by
  -- A step changes what one subscriber carries, by less than it moves elsewhere.
  cases action with
  | purge message => cases goes
  | publishFails => cases goes
  | timeout => cases goes
  | publish =>
    obtain ⟨message, purged, rfl⟩ := step_publish.mp stepped
    have same : (world.publish message).carried = world.carried := rfl
    simp only [work, same]
    simp only [World.publish, purged, Publisher.work, List.length_finRange]
    omega
  | listen =>
    obtain ⟨message, subscriber, observers, publishing, rfl⟩ := step_listen.mp stepped
    exact work_listen publishing
  | finish =>
    obtain ⟨message, publishing, rfl⟩ := step_finish.mp stepped
    have same : carried { world with publisher := .idle } = world.carried := rfl
    simp only [work, same, publishing, Publisher.work]
    omega
  | take subscriber =>
    obtain ⟨idle, message, rest, got, rfl⟩ := step_take.mp stepped
    exact work_take idle got
  | setReply subscriber ret =>
    obtain ⟨message, held, rfl⟩ := step_setReply.mp stepped
    exact work_setReply held ret
  | getReply =>
    obtain ⟨idle, reply, rest, got, rfl⟩ := step_getReply.mp stepped
    have items := congrArg List.length (Bounded.get_eq_some.mp got)
    have same : (world.getReply reply rest).carried = world.carried := rfl
    simp only [work, same]
    simp only [World.getReply, List.length_cons] at items ⊢
    omega

/-- With one share for everybody, only so much can be left to do. -/
theorem Balanced.work_le {ledger : Ledger RetType subscribers} (balanced : world.Balanced ledger) :
    world.work ≤ 4 * subscribers + 2 := by
  have shares : ∑ subscriber, (4 * world.publisher.observers.count subscriber +
      world.carried subscriber + ledger.waiting.count subscriber) ≤ 4 * subscribers := by
    calc ∑ subscriber, (4 * world.publisher.observers.count subscriber +
          world.carried subscriber + ledger.waiting.count subscriber)
        ≤ ∑ _subscriber : Fin subscribers, 4 := by
          refine Finset.sum_le_sum fun subscriber _ => ?_
          have bound := balanced.share_le subscriber
          simp only [share, carried] at bound ⊢
          omega
      _ = 4 * subscribers := by simp [Nat.mul_comm]
  rw [Finset.sum_add_distrib, Finset.sum_add_distrib, ← Finset.mul_sum, sum_count, sum_count,
    balanced.queue] at shares
  cases publisher : world.publisher with
  | idle =>
    simp only [work, publisher, Publisher.work, Publisher.observers] at shares ⊢
    omega
  | purged message =>
    -- A publication begins with nothing on its way.
    obtain ⟨replies, quiet⟩ := balanced.drained message publisher
    have nothing : ∑ subscriber, world.carried subscriber = 0 := by
      refine Finset.sum_eq_zero fun subscriber _ => ?_
      obtain ⟨inbox, hand⟩ := quiet subscriber
      simp [carried, inbox, hand]
    simp [work, publisher, Publisher.work, nothing, replies]
  | publishing message observers =>
    simp only [work, publisher, Publisher.work, Publisher.observers] at shares ⊢
    omega

/-- No step on the way can be taken. -/
def AtRest (world : World MessageType RetType capacity msgqSize) : Prop :=
  ∀ action : Action MessageType RetType subscribers, action.Goes → World.step world action = none

/-- The system is at rest between calls, when nothing is on its way. -/
theorem atRest_iff [Nonempty RetType] :
    world.AtRest ↔ world.publisher = .idle ∧ world.Drained := by
  -- Each place where something could be left has a step that takes it further.
  constructor
  · intro rest
    have idle : world.publisher = .idle := by
      cases publisher : world.publisher with
      | idle => rfl
      | purged message => simpa [step, publisher] using rest .publish trivial
      | publishing message observers =>
        cases observers with
        | nil => simpa [step, publisher] using rest .finish trivial
        | cons subscriber observers => simpa [step, publisher] using rest .listen trivial
    have hand (subscriber : Fin subscribers) : world.hand subscriber = none := by
      obtain ⟨ret⟩ := ‹Nonempty RetType›
      cases held : world.hand subscriber with
      | none => rfl
      | some message => simpa [step, held] using rest (.setReply subscriber ret) trivial
    refine ⟨idle, ?_, fun subscriber => ⟨?_, hand subscriber⟩⟩
    · cases got : world.msgq.get with
      | none => exact Bounded.get_eq_none.mp got
      | some reply => simpa [step, idle, got] using rest .getReply trivial
    · cases got : (world.inbox subscriber).get with
      | none => exact Bounded.get_eq_none.mp got
      | some message => simpa [step, hand, got] using rest (.take subscriber) trivial
  · rintro ⟨idle, replies, quiet⟩ action goes
    have nothing := Bounded.get_eq_none.mpr replies
    cases action with
    | purge message => cases goes
    | publishFails => cases goes
    | timeout => cases goes
    | publish => simp [step, idle]
    | listen => simp [step, idle]
    | finish => simp [step, idle]
    | take subscriber =>
      obtain ⟨inbox, hand⟩ := quiet subscriber
      simp [step, hand, Bounded.get_eq_none.mpr inbox]
    | setReply subscriber ret => simp [step, (quiet subscriber).2]
    | getReply => simp [step, idle, nothing]

/-- Where nothing is on its way, everybody's reply to the latest message has been returned. -/
theorem Balanced.answered {ledger : Ledger RetType subscribers} (balanced : world.Balanced ledger)
    (idle : world.publisher = .idle) (drained : world.Drained) (some_sent : world.sent ≠ []) :
    (world.returned.countP fun reply => reply.latest = world.sent.length) = subscribers := by
  have nobody : ledger.waiting = [] := by
    have queue := balanced.queue
    rw [drained.1] at queue
    exact List.length_eq_zero_iff.mp queue
  rw [← balanced.length_senders, ← sum_count]
  calc ∑ subscriber, (ledger.senders world.sent.length).count subscriber
      = ∑ _subscriber : Fin subscribers, 1 := by
        refine Finset.sum_congr rfl fun subscriber _ => ?_
        -- The share of every subscriber can only be among the replies that were returned.
        have once := balanced.once subscriber
        obtain ⟨inbox, hand⟩ := drained.2 subscriber
        rw [if_neg some_sent] at once
        simpa [share, idle, Publisher.observers, inbox, hand, nobody] using once
    _ = subscribers := by simp

/-- Steps on the way are made at any pace. -/
theorem paced_of_goes {rest : List (Action MessageType RetType subscribers)}
    (goes : ∀ action ∈ rest, action.Goes) : World.step.Meets Paced world rest := by
  -- Only a purge or an end of the waiting can be too early.
  have preserved : ∀ (state : World MessageType RetType capacity msgqSize)
      (action : Action MessageType RetType subscribers) next, True → action.Goes →
        World.step state action = some next → True := fun _ _ _ _ _ _ => trivial
  refine Machine.meets_of_invariant preserved (fun _ action _ goes => ?_) trivial
    (Machine.meets_of_forall goes)
  cases action with
  | purge message => cases goes
  | publishFails => cases goes
  | timeout => cases goes
  | publish | listen | finish | take subscriber | setReply subscriber ret | getReply => trivial

/-- In a paced run everybody has one share in the latest message. -/
theorem exists_balanced {actions : List (Action MessageType RetType subscribers)}
    (fits : subscribers ≤ msgqSize) (room : ∀ subscriber, 1 ≤ capacity subscriber)
    (ran : World.step.run (.initial capacity msgqSize) actions = some world)
    (paced : World.step.Meets Paced
      (.initial capacity msgqSize : World MessageType RetType capacity msgqSize) actions) :
    ∃ ledger, world.Balanced ledger := by
  -- The ledger is kept along the run as a record of it.
  obtain ⟨ledger, recorded⟩ := Machine.exists_recorded note .empty ran
  have preserved : ∀ (state : World MessageType RetType capacity msgqSize ×
      Ledger RetType subscribers) action next, state.1.Balanced state.2 → state.1.Paced action →
        World.step.withRecord note state action = some next → next.1.Balanced next.2 := by
    rintro ⟨world, ledger⟩ action ⟨next, written⟩ balanced paced stepped
    obtain ⟨stepped, rfl⟩ := Machine.withRecord_eq_some.mp stepped
    exact balanced.step fits room paced stepped
  have met := (Machine.meets_withRecord note .empty).mpr paced
  exact ⟨ledger, Machine.run_invariant_of_meets preserved balanced_initial met recorded⟩

end World

/-- Two subscribers have just been told of a message. -/
def told : World Nat Nat (fun _ : Fin 2 => 1) 2 :=
  (World.step.run (.initial _ _) [.purge 1, .publish, .listen, .listen]).get (by decide)

/-- What the threads do then, in one of the orders they could do it in. -/
def answering : List (Action Nat Nat 2) :=
  [.take 1, .finish, .setReply 1 15, .take 0, .getReply, .setReply 0 14, .getReply]

/-- Both have answered, and both replies were returned. -/
def answered : World Nat Nat (fun _ : Fin 2 => 1) 2 :=
  (World.step.run told answering).get (by decide)

end Notus.ZBusWrapperWithReply
