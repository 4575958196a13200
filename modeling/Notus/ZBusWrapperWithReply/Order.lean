import Notus.ZBusWrapperWithReply.Delivery

/-! Order of replies: no subscriber's reply comes back twice, or behind that to a later message. -/

namespace Notus.ZBusWrapperWithReply

variable {MessageType RetType : Type*} {subscribers : Nat} {capacity : Fin subscribers → Nat}
  {msgqSize : Nat}

/-- The rounds of the replies that were returned from a subscriber, in order. -/
def Ledger.rounds (ledger : Ledger RetType subscribers) (subscriber : Fin subscribers) : List Nat :=
  (ledger.received.filter fun entry => entry.1 = subscriber).map fun entry => entry.2.round

namespace World

/-- The rounds of the replies from a subscriber that wait in the queue. -/
def waitingRounds (world : World MessageType RetType capacity msgqSize)
    (ledger : Ledger RetType subscribers) (subscriber : Fin subscribers) : List Nat :=
  ((ledger.waiting.zip world.msgq.items).filter fun entry => entry.1 = subscriber).map
    fun entry => entry.2.round

/-- The rounds of all that goes through a subscriber, from what is returned to what is to come. -/
def journey (world : World MessageType RetType capacity msgqSize)
    (ledger : Ledger RetType subscribers) (subscriber : Fin subscribers) : List Nat :=
  ledger.rounds subscriber ++ world.waitingRounds ledger subscriber ++
    (world.hand subscriber).toList.map SubscriberWithMsgQ.round ++
    (world.inbox subscriber).items.map SubscriberWithMsgQ.round ++
    -- A listener that is still to be called will copy the message of the latest send.
    if subscriber ∈ world.publisher.observers then [world.sent.length] else []

/-- Through every subscriber the rounds pass one after the other, and none is still to come. -/
structure Ordered (world : World MessageType RetType capacity msgqSize)
    (ledger : Ledger RetType subscribers) : Prop where
  queue : ledger.waiting.length = world.msgq.items.length
  observers : world.publisher.observers.Nodup
  entries : ledger.received.map Prod.snd = world.returned
  ascending : ∀ subscriber, (world.journey ledger subscriber).Pairwise (· < ·)
  past : ∀ subscriber, ∀ round ∈ world.journey ledger subscriber,
    1 ≤ round ∧ round ≤ world.sent.length
  answered : ∀ entry ∈ ledger.received, 1 ≤ entry.2.round ∧ entry.2.round ≤ entry.2.latest

section Order

variable {world next : World MessageType RetType capacity msgqSize}
  {ledger written : Ledger RetType subscribers}

/-- Between publications nothing is still to be copied for anybody. -/
theorem journey_of_quiet (quiet : world.publisher.observers = [])
    (subscriber : Fin subscribers) :
    world.journey ledger subscriber =
      ledger.rounds subscriber ++ world.waitingRounds ledger subscriber ++
        (world.hand subscriber).toList.map SubscriberWithMsgQ.round ++
        (world.inbox subscriber).items.map SubscriberWithMsgQ.round := by
  -- The observers that are left make up the rest of the journey.
  simp [journey, quiet]

/-- What only moves on, or is dropped on its way, stays in order. -/
theorem Ordered.passes (ordered : world.Ordered ledger)
    (queue : written.waiting.length = next.msgq.items.length)
    (observers : next.publisher.observers.Nodup)
    (entries : written.received.map Prod.snd = next.returned)
    (answered : ∀ entry ∈ written.received, 1 ≤ entry.2.round ∧ entry.2.round ≤ entry.2.latest)
    (sent : next.sent = world.sent)
    (fewer : ∀ subscriber,
      (next.journey written subscriber).Sublist (world.journey ledger subscriber)) :
    next.Ordered written := by
  -- A part of an ascending journey is ascending.
  refine ⟨queue, observers, entries, fun subscriber => ?_, fun subscriber round member => ?_,
    answered⟩
  · exact (ordered.ascending subscriber).sublist (fewer subscriber)
  · rw [sent]
    exact ordered.past subscriber round ((fewer subscriber).subset member)

/-- A publication comes to every subscriber behind all that is on its way. -/
theorem Ordered.publish (ordered : world.Ordered ledger) {message : MessageType}
    (purged : world.publisher = .purged message) : (world.publish message).Ordered ledger := by
  have length : (world.publish message).sent.length = world.sent.length + 1 := by
    simp [World.publish]
  have before (subscriber : Fin subscribers) : (world.publish message).journey ledger subscriber =
      world.journey ledger subscriber ++ [world.sent.length + 1] := by
    have listed : subscriber ∈ (world.publish message).publisher.observers := List.mem_finRange _
    have unlisted : subscriber ∉ world.publisher.observers := by
      rw [purged]
      exact List.not_mem_nil
    simp only [journey, if_pos listed, if_neg unlisted, length, List.append_nil]
    rfl
  refine ⟨ordered.queue, List.nodup_finRange _, ordered.entries, fun subscriber => ?_,
    fun subscriber round member => ?_, ordered.answered⟩
  · -- The number of the new message is above all that are on their way.
    rw [before, List.pairwise_append]
    refine ⟨ordered.ascending subscriber, List.pairwise_singleton _ _, ?_⟩
    intro round member last same
    have old := (ordered.past subscriber round member).2
    rw [List.mem_singleton.mp same]
    omega
  · rw [before, List.mem_append, List.mem_singleton] at member
    rw [length]
    rcases member with old | rfl
    · have known := ordered.past subscriber round old
      omega
    · omega

/-- A listener that is called moves the latest message into the queue, or drops it. -/
theorem Ordered.listen (ordered : world.Ordered ledger) {message : MessageType}
    {subscriber : Fin subscribers} {observers : List (Fin subscribers)}
    (publishing : world.publisher = .publishing message (subscriber :: observers)) :
    (world.listen message subscriber observers).Ordered ledger := by
  have nodup := ordered.observers
  rw [publishing] at nodup
  obtain ⟨unlisted, rest⟩ := List.nodup_cons.mp nodup
  refine ordered.passes ordered.queue rest ordered.entries ordered.answered rfl fun other => ?_
  by_cases own : other = subscriber
  · subst own
    have listed : other ∈ world.publisher.observers := by
      rw [publishing]
      exact List.mem_cons_self
    have gone : other ∉ (world.listen message other observers).publisher.observers := unlisted
    simp only [journey, if_pos listed, if_neg gone, List.append_nil]
    have inbox : (world.listen message other observers).inbox other =
        (kMsgqPut (world.inbox other) { message := message, round := world.sent.length }).1 :=
      Function.update_self ..
    rw [inbox]
    -- What was still to be copied is now last in the inbox, unless the inbox is full.
    rcases kMsgqPut_cases (world.inbox other) { message := message, round := world.sent.length }
      with ⟨_, _, stored⟩ | ⟨_, _, same⟩
    · rw [stored, List.map_append, ← List.append_assoc]
      exact List.Sublist.refl _
    · rw [same]
      exact List.sublist_append_left _ _
  · have inbox : (world.listen message subscriber observers).inbox other = world.inbox other :=
      Function.update_of_ne own ..
    have listed : other ∈ (world.listen message subscriber observers).publisher.observers ↔
        other ∈ world.publisher.observers := by
      rw [publishing]
      simp [World.listen, Publisher.observers, own]
    simp only [journey, inbox, listed]
    exact List.Sublist.refl _

/-- A subscriber that takes a message has it in its hand, and behind nothing. -/
theorem Ordered.take (ordered : world.Ordered ledger) {subscriber : Fin subscribers}
    {message : SubscriberWithMsgQ MessageType}
    {rest : KMsgq (SubscriberWithMsgQ MessageType) (capacity subscriber)}
    (idle : world.hand subscriber = none)
    (got : (world.inbox subscriber).get = some (message, rest)) :
    (world.take subscriber message rest).Ordered ledger := by
  have items := Bounded.get_eq_some.mp got
  refine ordered.passes ordered.queue ordered.observers ordered.entries ordered.answered rfl
    fun other => ?_
  by_cases own : other = subscriber
  · subst own
    have inbox : (world.take other message rest).inbox other = rest := Function.update_self ..
    have hand : (world.take other message rest).hand other = some message :=
      Function.update_self ..
    -- The first of the inbox comes into the hand, which was empty.
    simp only [journey, inbox, hand, idle, items, Option.toList_some, Option.toList_none,
      List.map_cons, List.map_nil, List.append_assoc, List.nil_append, List.cons_append]
    exact List.Sublist.refl _
  · have inbox : (world.take subscriber message rest).inbox other = world.inbox other :=
      Function.update_of_ne own ..
    have hand : (world.take subscriber message rest).hand other = world.hand other :=
      Function.update_of_ne own ..
    simp only [journey, inbox, hand]
    exact List.Sublist.refl _

/-- A reply that is put into the queue waits behind those of its sender, and nobody else's. -/
theorem Ordered.waitingRounds_stored (ordered : world.Ordered ledger) {reply : Reply RetType}
    (stored : next.msgq.items = world.msgq.items ++ [reply]) (subscriber other : Fin subscribers) :
    next.waitingRounds { ledger with waiting := ledger.waiting ++ [subscriber] } other =
      world.waitingRounds ledger other ++ if subscriber = other then [reply.round] else [] := by
  -- The sender is noted at the place that the reply has in the queue.
  have zipped : (ledger.waiting ++ [subscriber]).zip next.msgq.items =
      ledger.waiting.zip world.msgq.items ++ [(subscriber, reply)] := by
    rw [stored, List.zip_append ordered.queue]
    rfl
  by_cases own : subscriber = other
  · subst own
    simp [waitingRounds, zipped]
  · simp [waitingRounds, zipped, own]

/-- A reply goes behind those of its subscriber that wait, or is dropped. -/
theorem Ordered.setReply (ordered : world.Ordered ledger) {subscriber : Fin subscribers}
    {message : SubscriberWithMsgQ MessageType} {ret : RetType}
    (held : world.hand subscriber = some message) :
    (world.setReply subscriber message ret).Ordered
      (world.note (.setReply subscriber ret) ledger) := by
  simp only [note, held]
  rcases kMsgqPut_cases world.msgq { ret := ret, round := message.round }
    with ⟨_, answer, stored⟩ | ⟨_, answer, same⟩
  · -- The reply waits behind the others, and its sender is noted behind theirs.
    rw [if_pos answer]
    have items : (world.setReply subscriber message ret).msgq.items =
        world.msgq.items ++ [{ ret := ret, round := message.round }] := stored
    have queue : (ledger.waiting ++ [subscriber]).length =
        (world.setReply subscriber message ret).msgq.items.length := by
      simp [items, ordered.queue]
    refine ordered.passes queue ordered.observers ordered.entries ordered.answered rfl ?_
    intro other
    have waiting := ordered.waitingRounds_stored items subscriber other
    by_cases own : other = subscriber
    · subst own
      have hand : (world.setReply other message ret).hand other = none := Function.update_self ..
      rw [if_pos rfl] at waiting
      simp only [journey, hand, held, waiting, Option.toList_some, Option.toList_none,
        List.map_cons, List.map_nil, List.append_assoc, List.nil_append]
      exact List.Sublist.refl _
    · have hand : (world.setReply subscriber message ret).hand other = world.hand other :=
        Function.update_of_ne own ..
      rw [if_neg (Ne.symm own), List.append_nil] at waiting
      simp only [journey, hand, waiting]
      exact List.Sublist.refl _
  · -- The reply is dropped, and with it one round of its subscriber's journey.
    have refused : ¬ (kMsgqPut world.msgq { ret := ret, round := message.round }).2 = 0 := by
      rw [answer]
      decide
    rw [if_neg refused]
    have kept : (world.setReply subscriber message ret).msgq = world.msgq := same
    refine ordered.passes (by rw [kept]; exact ordered.queue) ordered.observers ordered.entries
      ordered.answered rfl fun other => ?_
    by_cases own : other = subscriber
    · subst own
      have hand : (world.setReply other message ret).hand other = none := Function.update_self ..
      simp only [journey, hand, waitingRounds, kept, Option.toList_none, List.map_nil,
        List.append_nil]
      exact ((List.sublist_append_left _ _).append_right _).append_right _
    · have hand : (world.setReply subscriber message ret).hand other = world.hand other :=
        Function.update_of_ne own ..
      simp only [journey, hand, waitingRounds, kept]
      exact List.Sublist.refl _

/-- A reply that is returned was the first to wait, and its subscriber's first. -/
theorem Ordered.getReply (ordered : world.Ordered ledger) {reply : Reply RetType}
    {rest : KMsgq (Reply RetType) msgqSize} (got : world.msgq.get = some (reply, rest)) :
    (world.getReply reply rest).Ordered (world.note .getReply ledger) := by
  have items := Bounded.get_eq_some.mp got
  have queue := ordered.queue
  rw [items] at queue
  obtain ⟨sender, others, first⟩ := List.exists_cons_of_length_eq_add_one queue
  simp only [note, first, got]
  rw [first, List.length_cons, List.length_cons] at queue
  have zipped : ledger.waiting.zip world.msgq.items = (sender, reply) :: others.zip rest.items := by
    rw [first, items]
    rfl
  have known : reply.round ∈ world.journey ledger sender := by
    simp [journey, waitingRounds, zipped]
  refine ordered.passes (Nat.succ.inj queue) ordered.observers ?_ ?_ rfl fun other => ?_
  · simp [World.getReply, ordered.entries]
  · intro entry member
    rcases List.mem_append.mp member with old | new
    · exact ordered.answered entry old
    · rw [List.mem_singleton.mp new]
      exact ordered.past sender reply.round known
  · -- One round has gone from those that wait to those that were returned.
    have moved : (Ledger.rounds { waiting := others, received := ledger.received ++
        [(sender, ({ reply with latest := world.sent.length } : Returned RetType))] } other) ++
          (world.getReply reply rest).waitingRounds { waiting := others, received := [] } other =
        ledger.rounds other ++ world.waitingRounds ledger other := by
      by_cases own : sender = other
      · simp [Ledger.rounds, waitingRounds, zipped, own, World.getReply]
      · simp [Ledger.rounds, waitingRounds, zipped, own, World.getReply]
    simp only [journey, ← moved]
    exact List.Sublist.refl _

/-- Every step keeps all that is on its way through a subscriber in order. -/
theorem Ordered.step (ordered : world.Ordered ledger)
    {action : Action MessageType RetType subscribers}
    (stepped : step world action = some next) : next.Ordered (world.note action ledger) := by
  cases action with
  | purge message =>
    obtain ⟨idle, rfl⟩ := step_purge.mp stepped
    refine ordered.passes rfl List.nodup_nil ordered.entries ordered.answered rfl fun other => ?_
    -- The replies that waited are gone, and the others keep their order.
    rw [journey_of_quiet rfl, journey_of_quiet (by rw [idle]; rfl)]
    simp only [waitingRounds, note, List.zip_nil_left, List.filter_nil, List.map_nil,
      List.append_nil]
    exact ((List.sublist_append_left _ _).append_right _).append_right _
  | publishFails =>
    obtain ⟨message, purged, rfl⟩ := step_publishFails.mp stepped
    refine ordered.passes ordered.queue List.nodup_nil ordered.entries ordered.answered rfl
      fun other => ?_
    -- The message was not sent to anybody.
    rw [journey_of_quiet rfl, journey_of_quiet (by rw [purged]; rfl)]
    exact List.Sublist.refl _
  | publish =>
    obtain ⟨message, purged, rfl⟩ := step_publish.mp stepped
    exact ordered.publish purged
  | listen =>
    obtain ⟨message, subscriber, observers, publishing, rfl⟩ := step_listen.mp stepped
    exact ordered.listen publishing
  | finish =>
    obtain ⟨message, publishing, rfl⟩ := step_finish.mp stepped
    refine ordered.passes ordered.queue List.nodup_nil ordered.entries ordered.answered rfl
      fun other => ?_
    -- All listeners have been called.
    rw [journey_of_quiet rfl, journey_of_quiet (by rw [publishing]; rfl)]
    exact List.Sublist.refl _
  | take subscriber =>
    obtain ⟨idle, message, rest, got, rfl⟩ := step_take.mp stepped
    exact ordered.take idle got
  | setReply subscriber ret =>
    obtain ⟨message, held, rfl⟩ := step_setReply.mp stepped
    exact ordered.setReply held
  | getReply =>
    obtain ⟨_, reply, rest, got, rfl⟩ := step_getReply.mp stepped
    exact ordered.getReply got
  | timeout =>
    obtain ⟨_, _, rfl⟩ := step_timeout.mp stepped
    exact ordered

end Order

/-- Before the first send nothing is on its way through anybody. -/
theorem ordered_initial :
    (initial capacity msgqSize : World MessageType RetType capacity msgqSize).Ordered .empty :=
  -- There are no journeys yet.
  ⟨rfl, List.nodup_nil, rfl, fun _ => List.Pairwise.nil, nofun, nofun⟩

end World

/--
However fast the publisher sends and whatever is dropped, no subscriber answers a message twice.

Its replies come back in the order of the messages, and none of them answers a later message.
-/
theorem replies_ordered {actions : List (Action MessageType RetType subscribers)}
    {last : World MessageType RetType capacity msgqSize}
    (ran : World.step.run (.initial capacity msgqSize) actions = some last) :
    ∃ ledger : Ledger RetType subscribers,
      (World.step.withRecord World.note).run (.initial capacity msgqSize, .empty) actions =
        some (last, ledger) ∧
      ledger.received.map Prod.snd = last.returned ∧
      (∀ subscriber, (ledger.rounds subscriber).Pairwise (· < ·)) ∧
      ∀ entry ∈ ledger.received, 1 ≤ entry.2.round ∧ entry.2.round ≤ entry.2.latest := by
  obtain ⟨ledger, recorded⟩ := Machine.exists_recorded World.note .empty ran
  have preserved : ∀ (state : World MessageType RetType capacity msgqSize ×
      Ledger RetType subscribers) action next, state.1.Ordered state.2 →
        World.step.withRecord World.note state action = some next → next.1.Ordered next.2 := by
    rintro ⟨world, ledger⟩ action ⟨next, written⟩ ordered stepped
    obtain ⟨stepped, rfl⟩ := Machine.withRecord_eq_some.mp stepped
    exact ordered.step stepped
  have begun : (World.initial capacity msgqSize :
      World MessageType RetType capacity msgqSize).Ordered .empty := World.ordered_initial
  have ordered := Machine.run_invariant preserved begun recorded
  refine ⟨ledger, recorded, ordered.entries, fun subscriber => ?_, ordered.answered⟩
  -- What was returned is the front of all that went through the subscriber.
  have whole := ordered.ascending subscriber
  simp only [World.journey, List.append_assoc] at whole
  exact (List.pairwise_append.mp whole).1

/-- A send that does not wait drops a reply, and the late one after it is of the right order. -/
theorem replies_ordered_hasty :
    ∃ (last : World Nat Nat (fun _ : Fin 2 => 1) 1) (ledger : Ledger Nat 2),
      last.returned.map (·.ret) = [14, 24] ∧ ledger.received.map Prod.snd = last.returned ∧
      ∀ subscriber, (ledger.rounds subscriber).Pairwise (· < ·) := by
  -- The queue of one reply is full when the second subscriber answers.
  let actions : List (Action Nat Nat 2) :=
    [.purge 1, .publish, .listen, .take 0, .listen, .finish, .setReply 0 14, .take 1,
      .setReply 1 15, .getReply, .purge 2, .publishFails, .purge 3, .publish, .listen, .listen,
      .finish, .take 0, .setReply 0 24, .getReply]
  have completes : (World.step.run (.initial (fun _ : Fin 2 => 1) 1) actions).isSome := by decide
  obtain ⟨ledger, _, received, ascending, _⟩ := replies_ordered (Option.some_get completes).symm
  exact ⟨_, ledger, rfl, received, ascending⟩

end Notus.ZBusWrapperWithReply
