import Notus.ZBusWrapperWithReply

/-! Currency of replies: they answer the latest send when nothing of an earlier one is left. -/

namespace Notus.ZBusWrapperWithReply.World

variable {MessageType RetType : Type*} {subscribers : Nat} {capacity : Fin subscribers → Nat}
  {msgqSize : Nat}

/-- Everything that is on its way was sent, or answers what was sent, by such a round. -/
structure AllRounds (good : Nat → Prop) (world : World MessageType RetType capacity msgqSize) :
    Prop where
  replies : ∀ reply ∈ world.msgq.items, good reply.round
  inboxes : ∀ subscriber, ∀ message ∈ (world.inbox subscriber).items, good message.round
  hands : ∀ subscriber, ∀ message ∈ world.hand subscriber, good message.round

/-- Nothing is on its way. -/
def Drained (world : World MessageType RetType capacity msgqSize) : Prop :=
  -- Replies, queued requests and requests in hand are all there is on its way.
  world.msgq.items = [] ∧
    ∀ subscriber, (world.inbox subscriber).items = [] ∧ world.hand subscriber = none

instance [DecidableEq MessageType] [DecidableEq RetType]
    (world : World MessageType RetType capacity msgqSize) : Decidable world.Drained :=
  inferInstanceAs (Decidable (_ ∧ _))

/-- A publication begins with nothing on its way, if replies can be on their way at all. -/
def Settled (world : World MessageType RetType capacity msgqSize) :
    Action MessageType RetType subscribers → Prop
  | .publish => 0 < msgqSize → world.Drained
  | _ => True

instance [DecidableEq MessageType] [DecidableEq RetType]
    (world : World MessageType RetType capacity msgqSize) :
    (action : Action MessageType RetType subscribers) → Decidable (world.Settled action)
  | .publish => inferInstanceAs (Decidable (_ → world.Drained))
  | .purge _ | .publishFails | .listen | .finish | .take _ | .setReply _ _ | .getReply | .timeout =>
    isTrue trivial

/-- Every reply that was returned answers the latest successful send at that time. -/
def Current (world : World MessageType RetType capacity msgqSize) : Prop :=
  ∀ reply ∈ world.returned, reply.round = reply.latest

/-- Only a publication counts as another send. -/
theorem step_sent {world next : World MessageType RetType capacity msgqSize}
    {action : Action MessageType RetType subscribers} (other : action ≠ .publish)
    (stepped : step world action = some next) : next.sent = world.sent := by
  -- Every other action leaves the list of sends alone.
  cases action with
  | purge message => obtain ⟨_, rfl⟩ := step_purge.mp stepped; rfl
  | publishFails => obtain ⟨_, _, rfl⟩ := step_publishFails.mp stepped; rfl
  | publish => exact absurd rfl other
  | listen => obtain ⟨_, _, _, _, rfl⟩ := step_listen.mp stepped; rfl
  | finish => obtain ⟨_, _, rfl⟩ := step_finish.mp stepped; rfl
  | take subscriber => obtain ⟨_, _, _, _, rfl⟩ := step_take.mp stepped; rfl
  | setReply subscriber ret => obtain ⟨_, _, rfl⟩ := step_setReply.mp stepped; rfl
  | getReply => obtain ⟨_, _, _, _, rfl⟩ := step_getReply.mp stepped; rfl
  | timeout => obtain ⟨_, _, rfl⟩ := step_timeout.mp stepped; rfl

/-- A step returns nothing, or a reply out of the queue. -/
theorem step_returned {world next : World MessageType RetType capacity msgqSize}
    {action : Action MessageType RetType subscribers} (stepped : step world action = some next) :
    next.returned = world.returned ∨ ∃ reply ∈ world.msgq.items,
      next.returned = world.returned ++ [{ reply with latest := world.sent.length }] := by
  -- Only a call that waits for a reply returns one.
  cases action with
  | purge message => obtain ⟨_, rfl⟩ := step_purge.mp stepped; exact .inl rfl
  | publishFails => obtain ⟨_, _, rfl⟩ := step_publishFails.mp stepped; exact .inl rfl
  | publish => obtain ⟨_, _, rfl⟩ := step_publish.mp stepped; exact .inl rfl
  | listen => obtain ⟨_, _, _, _, rfl⟩ := step_listen.mp stepped; exact .inl rfl
  | finish => obtain ⟨_, _, rfl⟩ := step_finish.mp stepped; exact .inl rfl
  | take subscriber => obtain ⟨_, _, _, _, rfl⟩ := step_take.mp stepped; exact .inl rfl
  | setReply subscriber ret => obtain ⟨_, _, rfl⟩ := step_setReply.mp stepped; exact .inl rfl
  | getReply =>
    -- The reply was the first of the queue.
    obtain ⟨_, reply, rest, got, rfl⟩ := step_getReply.mp stepped
    exact .inr ⟨reply, by simp [Bounded.get_eq_some.mp got], rfl⟩
  | timeout => obtain ⟨_, _, rfl⟩ := step_timeout.mp stepped; exact .inl rfl

/-- A queue that is changed at one subscriber is as good as before at the others. -/
theorem forall_inboxes_update {good : Nat → Prop}
    {inbox : (subscriber : Fin subscribers) →
      KMsgq (SubscriberWithMsgQ MessageType) (capacity subscriber)}
    {changed : Fin subscribers} {queue : KMsgq (SubscriberWithMsgQ MessageType) (capacity changed)}
    (before : ∀ subscriber, ∀ message ∈ (inbox subscriber).items, good message.round)
    (after : ∀ message ∈ queue.items, good message.round) :
    ∀ subscriber, ∀ message ∈ (Function.update inbox changed queue subscriber).items,
      good message.round :=
  -- An update is looked at in its place and in all the others.
  (Function.forall_update_iff inbox fun _ queue => ∀ message ∈ queue.items, good message.round).mpr
    ⟨after, fun other _ => before other⟩

/-- A hand that is changed at one subscriber is as good as before at the others. -/
theorem forall_hands_update {good : Nat → Prop}
    {hand : Fin subscribers → Option (SubscriberWithMsgQ MessageType)} {changed : Fin subscribers}
    {held : Option (SubscriberWithMsgQ MessageType)}
    (before : ∀ subscriber, ∀ message ∈ hand subscriber, good message.round)
    (after : ∀ message ∈ held, good message.round) :
    ∀ subscriber, ∀ message ∈ Function.update hand changed held subscriber, good message.round :=
  -- The same holds of the hands, whose type does not depend on the subscriber.
  (Function.forall_update_iff hand fun _ held => ∀ message ∈ held, good message.round).mpr
    ⟨after, fun other _ => before other⟩

/-- What is on its way is passed on, and what comes new is of the latest round. -/
theorem AllRounds.step {good : Nat → Prop}
    {world next : World MessageType RetType capacity msgqSize}
    {action : Action MessageType RetType subscribers} (all : world.AllRounds good)
    (latest : good next.sent.length) (stepped : step world action = some next) :
    next.AllRounds good := by
  -- A message or reply is passed on with the round it was sent in.
  obtain ⟨replies, inboxes, hands⟩ := all
  cases action with
  | purge message =>
    obtain ⟨_, rfl⟩ := step_purge.mp stepped
    exact ⟨by simp, inboxes, hands⟩
  | publishFails =>
    obtain ⟨_, _, rfl⟩ := step_publishFails.mp stepped
    exact ⟨replies, inboxes, hands⟩
  | publish =>
    obtain ⟨_, _, rfl⟩ := step_publish.mp stepped
    exact ⟨replies, inboxes, hands⟩
  | listen =>
    obtain ⟨message, subscriber, observers, _, rfl⟩ := step_listen.mp stepped
    refine ⟨replies, forall_inboxes_update inboxes ?_, hands⟩
    -- The listener adds the message of the latest send to its own queue.
    intro copied member
    rcases mem_kMsgqPut member with old | rfl
    · exact inboxes subscriber copied old
    · exact latest
  | finish =>
    obtain ⟨_, _, rfl⟩ := step_finish.mp stepped
    exact ⟨replies, inboxes, hands⟩
  | take subscriber =>
    obtain ⟨_, message, rest, got, rfl⟩ := step_take.mp stepped
    have items := Bounded.get_eq_some.mp got
    -- What was first in the queue is now in the hand, and both belong to one subscriber.
    refine ⟨replies, forall_inboxes_update inboxes ?_, forall_hands_update hands ?_⟩
    · intro copied member
      exact inboxes subscriber copied (items ▸ List.mem_cons_of_mem _ member)
    · rintro held ⟨⟩
      exact inboxes subscriber message (items ▸ List.mem_cons_self)
  | setReply subscriber ret =>
    obtain ⟨message, hand, rfl⟩ := step_setReply.mp stepped
    refine ⟨fun reply member => ?_, inboxes, forall_hands_update hands ?_⟩
    · -- The reply answers the message that was in the hand.
      rcases mem_kMsgqPut member with old | rfl
      · exact replies reply old
      · exact hands subscriber message hand
    · rintro held ⟨⟩
  | getReply =>
    obtain ⟨_, reply, rest, got, rfl⟩ := step_getReply.mp stepped
    have items := Bounded.get_eq_some.mp got
    exact ⟨fun other member => replies other (items ▸ List.mem_cons_of_mem _ member), inboxes,
      hands⟩
  | timeout =>
    obtain ⟨_, _, rfl⟩ := step_timeout.mp stepped
    exact ⟨replies, inboxes, hands⟩

/-- Returned replies are current, and if replies can be on their way, all that is on its way is. -/
def UpToDate (world : World MessageType RetType capacity msgqSize) : Prop :=
  -- Without room for a reply none is ever returned, and old messages do no harm.
  (0 < msgqSize → world.AllRounds (· = world.sent.length)) ∧ world.Current

/-- A queue that holds something has room for something. -/
theorem msgqSize_pos {world : World MessageType RetType capacity msgqSize} {reply : Reply RetType}
    (member : reply ∈ world.msgq.items) : 0 < msgqSize :=
  -- The queue is no longer than its size.
  Nat.lt_of_lt_of_le (List.length_pos_of_mem member) world.msgq.bounded

/-- A weaker property of rounds holds with a stronger one. -/
theorem AllRounds.mono {good weaker : Nat → Prop}
    {world : World MessageType RetType capacity msgqSize} (all : world.AllRounds good)
    (weaken : ∀ round, good round → weaker round) : world.AllRounds weaker :=
  -- Each of the three places is looked at on its own.
  ⟨fun reply member => weaken _ (all.replies reply member),
    fun subscriber message member => weaken _ (all.inboxes subscriber message member),
    fun subscriber message member => weaken _ (all.hands subscriber message member)⟩

/-- Nothing on its way is ever of a round that is still to come. -/
theorem step_sent_rounds {world next : World MessageType RetType capacity msgqSize}
    {action : Action MessageType RetType subscribers}
    (all : world.AllRounds (· ≤ world.sent.length)) (stepped : step world action = some next) :
    next.AllRounds (· ≤ next.sent.length) := by
  -- The count of sends never goes down, so an old round stays old.
  have longer : world.sent.length ≤ next.sent.length := by
    by_cases publishes : action = .publish
    · subst publishes
      obtain ⟨message, _, rfl⟩ := step_publish.mp stepped
      simp [publish]
    · rw [step_sent publishes stepped]
  have weaker := all.mono fun _ old => Nat.le_trans old longer
  exact weaker.step (Nat.le_refl _) stepped

/-- A settled step keeps the world up to date. -/
theorem UpToDate.step {world next : World MessageType RetType capacity msgqSize}
    {action : Action MessageType RetType subscribers} (upToDate : world.UpToDate)
    (settled : world.Settled action) (stepped : step world action = some next) :
    next.UpToDate := by
  -- A publication makes everything on its way old, unless there is nothing.
  obtain ⟨all, current⟩ := upToDate
  constructor
  · intro replies
    by_cases publishes : action = .publish
    · -- With nothing on its way, everything on its way is of the new round.
      subst publishes
      obtain ⟨empty, idle⟩ := settled replies
      have none_ : world.AllRounds (· = next.sent.length) :=
        ⟨by simp [empty], fun subscriber => by simp [idle subscriber],
          fun subscriber => by simp [idle subscriber]⟩
      exact none_.step rfl stepped
    · have same := step_sent publishes stepped
      rw [same]
      exact (all replies).step (congrArg List.length same) stepped
  · rcases step_returned stepped with same | ⟨reply, member, added⟩
    · show ∀ reply ∈ next.returned, reply.round = reply.latest
      rw [same]
      exact current
    · -- The reply was on its way, so it answers the latest send.
      show ∀ reply ∈ next.returned, reply.round = reply.latest
      rw [added]
      intro other among
      rcases List.mem_append.mp among with old | new
      · exact current other old
      · cases List.mem_singleton.mp new
        exact (all (msgqSize_pos member)).replies reply member

/-- The first thing on its way to the publisher is older than its latest send. -/
inductive Overdue (world : World MessageType RetType capacity msgqSize) : Prop where
  /-- A reply is already there. -/
  | reply (reply : Reply RetType) (rest : List (Reply RetType))
      (first : world.msgq.items = reply :: rest) (old : reply.round < world.sent.length)
  /-- A subscriber is about to reply. -/
  | hand (empty : world.msgq.items = []) (subscriber : Fin subscribers)
      (message : SubscriberWithMsgQ MessageType) (held : world.hand subscriber = some message)
      (old : message.round < world.sent.length)
  /-- A subscriber is about to take the message. -/
  | inbox (empty : world.msgq.items = []) (subscriber : Fin subscribers)
      (message : SubscriberWithMsgQ MessageType) (rest : List (SubscriberWithMsgQ MessageType))
      (idle : world.hand subscriber = none)
      (first : (world.inbox subscriber).items = message :: rest)
      (old : message.round < world.sent.length)

/-- What is on its way when a publication begins is overdue once it has begun. -/
theorem overdue_of_undrained {world next : World MessageType RetType capacity msgqSize}
    (all : world.AllRounds (· ≤ world.sent.length)) (undrained : ¬ world.Drained)
    (stepped : step world .publish = some next) : next.Overdue := by
  -- The publication adds one to the sends, so whatever is there already is old now.
  obtain ⟨message, _, rfl⟩ := step_publish.mp stepped
  have more : (world.publish message).sent.length = world.sent.length + 1 := by
    simp [publish]
  cases replies : world.msgq.items with
  | cons reply rest =>
    have old := all.replies reply (by simp [replies])
    exact .reply reply rest replies (by omega)
  | nil =>
    -- The reply queue is empty, so some subscriber has something.
    have busy : ∃ subscriber, ¬ ((world.inbox subscriber).items = [] ∧
        world.hand subscriber = none) := by
      by_contra none_
      exact undrained ⟨replies, fun subscriber => by_contra fun some_ => none_ ⟨subscriber, some_⟩⟩
    obtain ⟨subscriber, busy⟩ := busy
    cases hand : world.hand subscriber with
    | some held =>
      have old := all.hands subscriber held hand
      exact .hand replies subscriber held hand (by omega)
    | none =>
      cases inbox : (world.inbox subscriber).items with
      | nil => exact absurd ⟨inbox, hand⟩ busy
      | cons first rest =>
        have old := all.inboxes subscriber first (by simp [inbox])
        exact .inbox replies subscriber first rest hand inbox (by omega)

/-- A listener adds behind what is in its queue, so what is overdue stays so. -/
theorem Overdue.listen {world : World MessageType RetType capacity msgqSize}
    (overdue : world.Overdue) (message : MessageType) (subscriber : Fin subscribers)
    (observers : List (Fin subscribers)) :
    (world.listen message subscriber observers).Overdue := by
  -- Replies and hands are not touched, and queues only grow at the end.
  cases overdue with
  | reply reply rest first old => exact .reply reply rest first old
  | hand empty other held inHand old => exact .hand empty other held inHand old
  | inbox empty other waiting rest idle first old =>
    by_cases own : other = subscriber
    · subst own
      rcases kMsgqPut_cases (world.inbox other) { message := message, round := world.sent.length }
        with ⟨_, _, stored⟩ | ⟨_, _, same⟩
      · refine .inbox empty other waiting (rest ++ [⟨message, world.sent.length⟩]) idle ?_ old
        simp [World.listen, stored, first]
      · refine .inbox empty other waiting rest idle ?_ old
        simp [World.listen, same, first]
    · refine .inbox empty other waiting rest idle ?_ old
      simp [World.listen, own, first]

/-- A publication can be carried to its end, with what is overdue still overdue. -/
theorem Overdue.finish {observers : List (Fin subscribers)} :
    ∀ {world : World MessageType RetType capacity msgqSize} {message : MessageType},
      world.publisher = .publishing message observers → world.Overdue →
      ∃ (actions : List (Action MessageType RetType subscribers))
        (last : World MessageType RetType capacity msgqSize),
        step.run world actions = some last ∧ last.publisher = .idle ∧ last.Overdue := by
  -- The listeners are called one by one, and then the publisher is idle again.
  induction observers with
  | nil =>
    intro world message publishing overdue
    refine ⟨[.finish], _, Machine.run_cons.mpr ⟨_, step_finish.mpr ⟨message, publishing, rfl⟩, rfl⟩,
      rfl, ?_⟩
    cases overdue with
    | reply reply rest first old => exact .reply reply rest first old
    | hand empty subscriber held inHand old => exact .hand empty subscriber held inHand old
    | inbox empty subscriber waiting rest idle first old =>
      exact .inbox empty subscriber waiting rest idle first old
  | cons subscriber rest ih =>
    intro world message publishing overdue
    have following : (world.listen message subscriber rest).publisher =
        .publishing message rest := rfl
    obtain ⟨actions, last, ran, idle, later⟩ :=
      ih following (overdue.listen message subscriber rest)
    exact ⟨.listen :: actions, last, Machine.run_cons.mpr
      ⟨_, step_listen.mpr ⟨message, subscriber, rest, publishing, rfl⟩, ran⟩, idle, later⟩

/-- Some reply that was returned answers an earlier send than the latest at that time. -/
def Stale (world : World MessageType RetType capacity msgqSize) : Prop :=
  -- The publisher was given an answer to a question it no longer asks.
  ∃ reply ∈ world.returned, reply.round < reply.latest

/-- An old reply that is there is returned by the next call. -/
theorem stale_of_reply {world : World MessageType RetType capacity msgqSize}
    {reply : Reply RetType} {rest : List (Reply RetType)} (idle : world.publisher = .idle)
    (first : world.msgq.items = reply :: rest) (old : reply.round < world.sent.length) :
    ∃ last, step.run world [.getReply] = some last ∧ last.Stale := by
  -- Replies are returned in the order they came in.
  obtain ⟨others, got⟩ := Bounded.exists_get first
  have stepped := step_getReply.mpr ⟨idle, reply, others, got, rfl⟩
  refine ⟨_, Machine.run_cons.mpr ⟨_, stepped, rfl⟩, { reply with latest := world.sent.length }, ?_,
    old⟩
  simp [getReply]

/-- A subscriber that replies to an old message has its reply returned. -/
theorem stale_of_hand [Inhabited RetType] {world : World MessageType RetType capacity msgqSize}
    {subscriber : Fin subscribers} {message : SubscriberWithMsgQ MessageType}
    (replies : 0 < msgqSize) (idle : world.publisher = .idle) (empty : world.msgq.items = [])
    (held : world.hand subscriber = some message) (old : message.round < world.sent.length) :
    ∃ last, step.run world [.setReply subscriber default, .getReply] = some last ∧
      last.Stale := by
  -- Any value will do as a reply.
  have stepped : step world (.setReply subscriber default) = _ :=
    step_setReply.mpr ⟨message, held, rfl⟩
  -- The queue is empty, so there is room for the reply.
  have first : (world.setReply subscriber message default).msgq.items =
      [⟨default, message.round⟩] := by
    rcases kMsgqPut_cases world.msgq ⟨default, message.round⟩ with ⟨_, _, stored⟩ | ⟨full, _, _⟩
    · simpa [setReply, empty] using stored
    · simp [empty] at full
      omega
  have waits : (world.setReply subscriber message default).publisher = .idle := idle
  obtain ⟨last, ran, stale⟩ := stale_of_reply waits first old
  exact ⟨last, Machine.run_cons.mpr ⟨_, stepped, ran⟩, stale⟩

/-- Between sends, what is overdue can come to be returned. -/
theorem Overdue.exists_stale [Inhabited RetType]
    {world : World MessageType RetType capacity msgqSize} (overdue : world.Overdue)
    (replies : 0 < msgqSize) (idle : world.publisher = .idle) :
    ∃ actions last, step.run world actions = some last ∧ last.Stale := by
  -- What is overdue moves on from the queue to the hand, and from there to the publisher.
  cases overdue with
  | reply reply rest first old => exact ⟨_, stale_of_reply idle first old⟩
  | hand empty subscriber message held old =>
    exact ⟨_, stale_of_hand replies idle empty held old⟩
  | inbox empty subscriber message rest free first old =>
    -- The subscriber first takes the message into its hand.
    obtain ⟨others, got⟩ := Bounded.exists_get first
    have stepped := step_take.mpr ⟨free, message, others, got, rfl⟩
    have held : (world.take subscriber message others).hand subscriber = some message := by
      simp [take]
    have waits : (world.take subscriber message others).publisher = .idle := idle
    obtain ⟨last, ran, stale⟩ := stale_of_hand replies waits empty held old
    exact ⟨_, last, Machine.run_cons.mpr ⟨_, stepped, ran⟩, stale⟩

/-- Before the first send everything is up to date, for nothing is on its way. -/
theorem initial_allRounds (good : Nat → Prop) :
    (initial capacity msgqSize : World MessageType RetType capacity msgqSize).AllRounds good :=
  -- All three places are empty.
  ⟨by simp [initial], by simp [initial], by simp [initial]⟩

/-- Before the first send nothing is on its way and nothing has been returned. -/
theorem upToDate_initial :
    (initial capacity msgqSize : World MessageType RetType capacity msgqSize).UpToDate :=
  -- There is neither a message nor a reply to be out of date.
  ⟨fun _ => initial_allRounds _, by simp [Current, initial]⟩

/--
Replies are current in the runs whose publications all begin with nothing on its way.

Any other run can go on differently after such a publication, so that an old reply is returned.
-/
theorem replies_current [Inhabited RetType]
    {actions : List (Action MessageType RetType subscribers)}
    {last : World MessageType RetType capacity msgqSize}
    (ran : step.run (initial capacity msgqSize) actions = some last) :
    (step.Meets Settled (initial capacity msgqSize) actions →
        ∀ reply ∈ last.returned, reply.round = reply.latest) ∧
      (¬ step.Meets Settled (initial capacity msgqSize) actions →
        ∃ before later other, before ++ [.publish] <+: actions ∧
          step.run (initial capacity msgqSize) (before ++ .publish :: later) = some other ∧
            ∃ reply ∈ other.returned, reply.round < reply.latest) := by
  constructor
  · intro settled
    exact (Machine.run_invariant_of_meets (fun _ _ _ => UpToDate.step) upToDate_initial settled
      ran).2
  · intro unsettled
    obtain ⟨before, action, after, middle, next, split, reached, _, violated, stepped, _⟩ :=
      Machine.exists_first_violation ran unsettled
    -- Only a publication can be unsettled.
    have publishes : action = .publish := by
      cases action <;> first | rfl | exact absurd trivial violated
    subst publishes
    obtain ⟨replies, undrained⟩ := Classical.not_imp.mp violated
    have rounds : middle.AllRounds (· ≤ middle.sent.length) :=
      Machine.run_invariant (fun _ _ _ => step_sent_rounds) (initial_allRounds _) reached
    have overdue := overdue_of_undrained rounds undrained stepped
    obtain ⟨message, _, same⟩ := step_publish.mp stepped
    have publishing : next.publisher = .publishing message (List.finRange subscribers) := by
      rw [same]
      rfl
    obtain ⟨finishing, finished, ended, idle, overdue⟩ := overdue.finish publishing
    obtain ⟨rest, other, returned, stale⟩ := overdue.exists_stale replies idle
    refine ⟨before, finishing ++ rest, other, ⟨after, by simp [split]⟩, ?_, stale⟩
    exact Machine.run_append.mpr ⟨middle, reached, Machine.run_cons.mpr
      ⟨next, stepped, Machine.run_append.mpr ⟨finished, ended, returned⟩⟩⟩

/-- Two messages to one subscriber, each answered before the next is sent. -/
def answered : List (Action Nat Nat 1) :=
  [.purge 1, .publish, .listen, .finish, .timeout, .take 0, .setReply 0 6, .getReply,
    .purge 2, .publish, .listen, .finish, .take 0, .setReply 0 7, .getReply]

/-- Both replies are returned for the message they answer. -/
theorem replies_current_answered :
    ∃ last : World Nat Nat (fun _ : Fin 1 => 10) 10,
      step.run (initial (fun _ => 10) 10) answered = some last ∧
        last.returned = [⟨⟨6, 1⟩, 1⟩, ⟨⟨7, 2⟩, 2⟩] ∧
        ∀ reply ∈ last.returned, reply.round = reply.latest := by
  -- The wait that times out is made again before the next send.
  have completes : (step.run (initial (fun _ : Fin 1 => 10) 10) answered).isSome := by decide
  have ran := (Option.some_get completes).symm
  exact ⟨_, ran, rfl, (replies_current ran).1 (by decide)⟩

/-- Answered after the next message was sent, the reply to the first is returned for the second. -/
theorem replies_stale :
    ∃ last : World Nat Nat (fun _ : Fin 1 => 10) 10,
      step.run (initial (fun _ => 10) 10) [.purge 1, .publish, .listen, .finish, .timeout, .take 0,
          .purge 2, .publish, .listen, .finish, .setReply 0 6, .getReply] = some last ∧
        last.returned = [⟨⟨6, 1⟩, 2⟩] ∧
        ¬ ∀ reply ∈ last.returned, reply.round = reply.latest := by
  -- The publisher times out before the reply is set, and purges before it comes.
  refine ⟨_, rfl, rfl, fun current => ?_⟩
  exact absurd (current ⟨⟨6, 1⟩, 2⟩ (by decide)) (by decide)

end Notus.ZBusWrapperWithReply.World
