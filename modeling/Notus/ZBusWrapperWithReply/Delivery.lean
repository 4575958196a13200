import Mathlib.Data.Fintype.Card
import Mathlib.Data.List.Count
import Mathlib.Data.List.FinRange
import Notus.Core.Ghost
import Notus.ZBusWrapperWithReply.Currency

/-! Delivery of replies: a publisher that waits for all of them gets one from every subscriber. -/

namespace Notus.ZBusWrapperWithReply

/-- Who sent the replies in the queue, and the replies returned with their senders. -/
structure Ledger (RetType : Type*) (subscribers : Nat) where
  waiting : List (Fin subscribers)
  received : List (Fin subscribers × Returned RetType)
  deriving DecidableEq

namespace Ledger

variable {RetType : Type*} {subscribers : Nat}

/-- Nothing has been sent or returned. -/
def empty : Ledger RetType subscribers :=
  { waiting := [], received := [] }

/-- The senders of the replies that were returned after such a successful send. -/
def senders (ledger : Ledger RetType subscribers) (round : Nat) : List (Fin subscribers) :=
  (ledger.received.filter fun entry => entry.2.latest = round).map Prod.fst

/-- Replies in the queue have not been returned. -/
@[simp] theorem senders_waiting (ledger : Ledger RetType subscribers)
    (waiting : List (Fin subscribers)) (round : Nat) :
    Ledger.senders { ledger with waiting := waiting } round = ledger.senders round := rfl

end Ledger

/-- The observers whose listeners have not been called yet. -/
def Publisher.observers {MessageType : Type*} {subscribers : Nat} :
    Publisher MessageType subscribers → List (Fin subscribers)
  | .publishing _ observers => observers
  | .idle | .purged _ => []

namespace World

variable {MessageType RetType : Type*} {subscribers : Nat} {capacity : Fin subscribers → Nat}
  {msgqSize : Nat}

/-- A purge forgets the senders, and a reply that finds room or is returned moves its sender on. -/
def note (world : World MessageType RetType capacity msgqSize) :
    Action MessageType RetType subscribers → Ledger RetType subscribers →
      Ledger RetType subscribers
  | .purge _, ledger => { ledger with waiting := [] }
  | .setReply subscriber ret, ledger =>
    match world.hand subscriber with
    | some message =>
      -- A reply that is refused was never sent.
      if (kMsgqPut world.msgq { ret := ret, round := message.round }).2 = 0 then
        { ledger with waiting := ledger.waiting ++ [subscriber] }
      else ledger
    | none => ledger
  | .getReply, ledger =>
    match ledger.waiting, world.msgq.get with
    | subscriber :: rest, some (reply, _) =>
      { waiting := rest
        received := ledger.received ++
          [(subscriber, { reply with latest := world.sent.length })] }
    | _, _ => ledger
  | .publishFails, ledger | .publish, ledger | .listen, ledger | .finish, ledger
  | .take _, ledger | .timeout, ledger => ledger

/-- Another send is made only after as many replies as there are subscribers, and none fails. -/
def Paced (world : World MessageType RetType capacity msgqSize) :
    Action MessageType RetType subscribers → Prop
  | .purge _ => world.sent = [] ∨
      subscribers ≤ world.returned.countP fun reply => reply.latest = world.sent.length
  | .publishFails => False
  | _ => True

instance [DecidableEq MessageType] (world : World MessageType RetType capacity msgqSize) :
    (action : Action MessageType RetType subscribers) → Decidable (world.Paced action)
  | .purge _ => inferInstanceAs (Decidable (_ ∨ _))
  | .publishFails => isFalse not_false
  | .publish | .listen | .finish | .take _ | .setReply _ _ | .getReply | .timeout => isTrue trivial

/-- Nothing is dropped: puts find room, and purges find nothing. -/
def Kept (world : World MessageType RetType capacity msgqSize) :
    Action MessageType RetType subscribers → Prop
  | .purge _ => world.msgq.items = []
  | .listen => ∀ message subscriber observers,
      world.publisher = .publishing message (subscriber :: observers) →
        (kMsgqPut (world.inbox subscriber) { message := message, round := world.sent.length }).2 = 0
  | .setReply subscriber ret => ∀ message, world.hand subscriber = some message →
      (kMsgqPut world.msgq { ret := ret, round := message.round }).2 = 0
  | _ => True

/-- Where the latest message of a subscriber is: to be copied, queued, in hand, or answered. -/
def share (world : World MessageType RetType capacity msgqSize)
    (ledger : Ledger RetType subscribers) (subscriber : Fin subscribers) : Nat :=
  world.publisher.observers.count subscriber + (world.inbox subscriber).items.length +
    (world.hand subscriber).toList.length + ledger.waiting.count subscriber +
      (ledger.senders world.sent.length).count subscriber

/-- Every subscriber has exactly one share in the latest message, and had one in each before. -/
structure Balanced (world : World MessageType RetType capacity msgqSize)
    (ledger : Ledger RetType subscribers) : Prop where
  queue : ledger.waiting.length = world.msgq.items.length
  entries : ledger.received.map Prod.snd = world.returned
  latest : ∀ reply ∈ world.returned, reply.latest ≤ world.sent.length
  once : ∀ subscriber, world.share ledger subscriber = if world.sent = [] then 0 else 1
  drained : ∀ message, world.publisher = .purged message → world.Drained
  complete : ∀ round, 0 < round → round < world.sent.length → ∀ subscriber,
    (ledger.senders round).count subscriber = 1

/-- A list without repetition that is as long as there are subscribers has all of them. -/
theorem mem_of_full {list : List (Fin subscribers)} (nodup : list.Nodup)
    (full : subscribers ≤ list.length) (subscriber : Fin subscribers) : subscriber ∈ list := by
  by_contra missing
  -- With the missing one it would be longer than there are subscribers.
  have longer := (List.nodup_cons.mpr ⟨missing, nodup⟩).length_le_card
  rw [Fintype.card_fin, List.length_cons] at longer
  omega

section Balance

variable {world next : World MessageType RetType capacity msgqSize}
  {ledger : Ledger RetType subscribers}

/-- No subscriber has two shares in one message. -/
theorem Balanced.share_le (balanced : world.Balanced ledger) (subscriber : Fin subscribers) :
    world.share ledger subscriber ≤ 1 := by
  -- It has one share or none, depending on whether there was a send.
  rw [balanced.once]
  split <;> omega

/-- No two replies of one subscriber wait in the queue. -/
theorem Balanced.waiting_nodup (balanced : world.Balanced ledger) : ledger.waiting.Nodup := by
  -- What waits in the queue is a part of a share.
  refine List.nodup_iff_count_le_one.mpr fun subscriber => ?_
  have bound := balanced.share_le subscriber
  unfold share at bound
  omega

/-- No two replies of one subscriber were returned for the latest message. -/
theorem Balanced.senders_nodup (balanced : world.Balanced ledger) :
    (ledger.senders world.sent.length).Nodup := by
  -- What was returned for the latest message is a part of a share, too.
  refine List.nodup_iff_count_le_one.mpr fun subscriber => ?_
  have bound := balanced.share_le subscriber
  unfold share at bound
  omega

/-- There are as many senders of a round as replies returned for it. -/
theorem Balanced.length_senders (balanced : world.Balanced ledger) (round : Nat) :
    (ledger.senders round).length =
      world.returned.countP fun reply => reply.latest = round := by
  -- The ledger lists the replies as they were returned, each with its sender.
  rw [← balanced.entries, List.countP_map, Ledger.senders, List.length_map,
    List.countP_eq_length_filter]
  rfl

/-- Where nobody has a share left, nothing is on its way. -/
theorem Balanced.drained_of_count (balanced : world.Balanced ledger)
    (empty : ∀ subscriber, (world.inbox subscriber).items.length = 0 ∧
      (world.hand subscriber).toList.length = 0 ∧ ledger.waiting.count subscriber = 0) :
    world.Drained ∧ ledger.waiting = [] := by
  -- The ledger knows how many replies wait in the queue, which are none.
  have nobody : ledger.waiting = [] :=
    List.eq_nil_iff_forall_not_mem.mpr fun subscriber =>
      List.count_eq_zero.mp (empty subscriber).2.2
  have replies := balanced.queue
  rw [nobody] at replies
  refine ⟨⟨List.length_eq_zero_iff.mp replies.symm, fun subscriber => ?_⟩, nobody⟩
  obtain ⟨inbox, hand, _⟩ := empty subscriber
  refine ⟨List.length_eq_zero_iff.mp inbox, ?_⟩
  cases held : world.hand subscriber with
  | none => rfl
  | some message => simp [held] at hand

/-- A publisher that has waited for all replies finds nothing on its way. -/
theorem Balanced.drained_of_paced (balanced : world.Balanced ledger) {message : MessageType}
    (paced : world.Paced (.purge message)) : world.Drained ∧ ledger.waiting = [] := by
  refine balanced.drained_of_count fun subscriber => ?_
  have once := balanced.once subscriber
  rcases paced with first | all
  · -- Before the first send nobody has a share in anything.
    rw [if_pos first] at once
    unfold share at once
    omega
  · -- Everybody's share is among the replies that were returned.
    rw [← balanced.length_senders] at all
    have answered := mem_of_full balanced.senders_nodup all subscriber
    have counted := List.count_pos_iff.mpr answered
    have bound := balanced.share_le subscriber
    unfold share at bound
    omega

/-- A publication that begins with nothing on its way leaves one share to everybody. -/
theorem Balanced.publish (balanced : world.Balanced ledger) {message : MessageType}
    (purged : world.publisher = .purged message) : (world.publish message).Balanced ledger := by
  obtain ⟨replies, idle⟩ := balanced.drained message purged
  have nobody : ledger.waiting = [] := by
    have same := balanced.queue
    rw [replies] at same
    exact List.length_eq_zero_iff.mp same
  have length : (world.publish message).sent.length = world.sent.length + 1 := by
    simp [World.publish]
  have fresh : ledger.senders (world.sent.length + 1) = [] := by
    -- No reply was returned after a send that is only now being made.
    rw [Ledger.senders, List.map_eq_nil_iff, List.filter_eq_nil_iff]
    intro entry member same
    have known := balanced.latest entry.2 (balanced.entries ▸ List.mem_map_of_mem member)
    simp only [decide_eq_true_eq] at same
    omega
  refine ⟨balanced.queue, balanced.entries, ?_, fun subscriber => ?_, by simp [World.publish], ?_⟩
  · intro reply member
    rw [length]
    exact Nat.le_succ_of_le (balanced.latest reply member)
  · obtain ⟨inbox, hand⟩ := idle subscriber
    have listed : (List.finRange subscribers).count subscriber = 1 :=
      List.count_eq_one_of_mem (List.nodup_finRange _) (List.mem_finRange _)
    have more : (world.publish message).sent ≠ [] := by simp [World.publish]
    rw [if_neg more, share, length, fresh, nobody]
    simp [World.publish, Publisher.observers, inbox, hand, listed]
  · intro round positive before subscriber
    rw [length] at before
    rcases Nat.lt_succ_iff_lt_or_eq.mp before with earlier | rfl
    · exact balanced.complete round positive earlier subscriber
    · -- The last round before this one has just become complete.
      have once := balanced.once subscriber
      obtain ⟨inbox, hand⟩ := idle subscriber
      rw [if_neg (List.length_pos_iff.mp positive), share, inbox, hand, nobody, purged] at once
      simpa [Publisher.observers] using once

/-- A listener that is still to be called finds the queue of its subscriber empty. -/
theorem Balanced.listen_fits (balanced : world.Balanced ledger) {message : MessageType}
    {subscriber : Fin subscribers} {observers : List (Fin subscribers)}
    (publishing : world.publisher = .publishing message (subscriber :: observers))
    (room : 1 ≤ capacity subscriber) (copied : SubscriberWithMsgQ MessageType) :
    (world.inbox subscriber).items = [] ∧ (kMsgqPut (world.inbox subscriber) copied).2 = 0 ∧
      (kMsgqPut (world.inbox subscriber) copied).1.items = [copied] := by
  -- The message that is still to be copied is the only share of the subscriber.
  have bound := balanced.share_le subscriber
  simp only [share, publishing, Publisher.observers, List.count_cons_self] at bound
  have empty : (world.inbox subscriber).items = [] := List.length_eq_zero_iff.mp (by omega)
  rcases kMsgqPut_cases (world.inbox subscriber) copied with ⟨_, answer, stored⟩ | ⟨full, _, _⟩
  · exact ⟨empty, answer, by rw [stored, empty, List.nil_append]⟩
  · rw [empty, List.length_nil] at full
    omega

/-- A subscriber that is about to answer finds room in the reply queue. -/
theorem Balanced.setReply_fits (balanced : world.Balanced ledger) (fits : subscribers ≤ msgqSize)
    {subscriber : Fin subscribers} {message : SubscriberWithMsgQ MessageType}
    (held : world.hand subscriber = some message) (reply : Reply RetType) :
    (kMsgqPut world.msgq reply).2 = 0 ∧
      (kMsgqPut world.msgq reply).1.items = world.msgq.items ++ [reply] := by
  -- Whoever waits in the queue is somebody else, and nobody waits twice.
  have bound := balanced.share_le subscriber
  simp only [share, held, Option.toList_some, List.length_singleton] at bound
  have absent : subscriber ∉ ledger.waiting := List.count_eq_zero.mp (by omega)
  have fewer := (List.nodup_cons.mpr ⟨absent, balanced.waiting_nodup⟩).length_le_card
  rw [Fintype.card_fin, List.length_cons, balanced.queue] at fewer
  rcases kMsgqPut_cases world.msgq reply with ⟨_, answer, stored⟩ | ⟨full, _, _⟩
  · exact ⟨answer, stored⟩
  · omega

/-- A listener that is called moves the share of its subscriber into the queue. -/
theorem Balanced.listen (balanced : world.Balanced ledger) {message : MessageType}
    {subscriber : Fin subscribers} {observers : List (Fin subscribers)}
    (publishing : world.publisher = .publishing message (subscriber :: observers))
    (room : 1 ≤ capacity subscriber) :
    (world.listen message subscriber observers).Balanced ledger := by
  -- The share goes from the observers that are left into an inbox that was empty.
  obtain ⟨empty, _, stored⟩ := balanced.listen_fits publishing room
    { message := message, round := world.sent.length }
  refine ⟨balanced.queue, balanced.entries, balanced.latest, fun other => ?_,
    by simp [World.listen], balanced.complete⟩
  have once := balanced.once other
  simp only [share, publishing, Publisher.observers] at once
  rw [show (world.listen message subscriber observers).sent = world.sent from rfl, ← once]
  by_cases own : other = subscriber
  · subst own
    simp only [share, World.listen, Publisher.observers, Function.update_self, stored, empty,
      List.length_singleton, List.length_nil, List.count_cons_self]
  · simp [share, World.listen, Publisher.observers, Function.update_of_ne own,
      List.count_cons_of_ne (Ne.symm own)]

/-- A subscriber that takes a message moves its share into its hand. -/
theorem Balanced.take (balanced : world.Balanced ledger) {subscriber : Fin subscribers}
    {message : SubscriberWithMsgQ MessageType}
    {rest : KMsgq (SubscriberWithMsgQ MessageType) (capacity subscriber)}
    (idle : world.hand subscriber = none)
    (got : (world.inbox subscriber).get = some (message, rest)) :
    (world.take subscriber message rest).Balanced ledger := by
  have items := Bounded.get_eq_some.mp got
  refine ⟨balanced.queue, balanced.entries, balanced.latest, fun other => ?_, fun sent purged => ?_,
    balanced.complete⟩
  · have once := balanced.once other
    rw [show (world.take subscriber message rest).sent = world.sent from rfl, ← once]
    by_cases own : other = subscriber
    · subst own
      simp only [share, World.take, Function.update_self, items, idle, Option.toList_some,
        Option.toList_none, List.length_cons, List.length_nil]
      omega
    · simp [share, World.take, Function.update_of_ne own]
  · -- Between a purge and its publication no queue holds anything.
    have nothing := ((balanced.drained sent purged).2 subscriber).1
    rw [items] at nothing
    cases nothing

/-- A subscriber that answers moves its share into the reply queue. -/
theorem Balanced.setReply (balanced : world.Balanced ledger) (fits : subscribers ≤ msgqSize)
    {subscriber : Fin subscribers} {message : SubscriberWithMsgQ MessageType} {ret : RetType}
    (held : world.hand subscriber = some message) :
    (world.setReply subscriber message ret).Balanced
      { ledger with waiting := ledger.waiting ++ [subscriber] } := by
  obtain ⟨_, stored⟩ := balanced.setReply_fits fits held { ret := ret, round := message.round }
  refine ⟨?_, balanced.entries, balanced.latest, fun other => ?_, fun sent purged => ?_,
    balanced.complete⟩
  · simp [World.setReply, stored, balanced.queue]
  · have once := balanced.once other
    rw [show (world.setReply subscriber message ret).sent = world.sent from rfl, ← once]
    by_cases own : other = subscriber
    · subst own
      simp only [share, World.setReply, Function.update_self, held, Option.toList_some,
        Option.toList_none, List.length_singleton, List.length_nil, List.count_append,
        List.count_singleton_self, Ledger.senders_waiting]
      omega
    · simp [share, World.setReply, Function.update_of_ne own, Ne.symm own]
  · -- Between a purge and its publication no hand holds anything.
    have nothing := ((balanced.drained sent purged).2 subscriber).2
    rw [held] at nothing
    cases nothing

/-- A reply that is returned keeps its sender, and is counted for the latest send. -/
theorem Balanced.getReply (balanced : world.Balanced ledger) {subscriber : Fin subscribers}
    {others : List (Fin subscribers)} {reply : Reply RetType}
    {rest : KMsgq (Reply RetType) msgqSize}
    (idle : world.publisher = .idle) (first : ledger.waiting = subscriber :: others)
    (got : world.msgq.get = some (reply, rest)) :
    (world.getReply reply rest).Balanced
      { waiting := others
        received := ledger.received ++
          [(subscriber, { reply with latest := world.sent.length })] } := by
  -- The share goes from those that wait to the senders of the latest round.
  have items := Bounded.get_eq_some.mp got
  have queue := balanced.queue
  rw [first, items, List.length_cons, List.length_cons] at queue
  have senders : ∀ round, Ledger.senders { waiting := others, received := ledger.received ++
      [(subscriber, ({ reply with latest := world.sent.length } : Returned RetType))] } round =
        ledger.senders round ++ if world.sent.length = round then [subscriber] else [] := by
    intro round
    simp only [Ledger.senders, List.filter_append, List.map_append]
    by_cases same : world.sent.length = round <;> simp [same]
  refine ⟨Nat.succ.inj queue, ?_, ?_, fun other => ?_, ?_, ?_⟩
  · simp [World.getReply, balanced.entries]
  · intro returned member
    rcases List.mem_append.mp member with old | new
    · exact balanced.latest returned old
    · rw [List.mem_singleton.mp new]
      exact Nat.le_refl _
  · have once := balanced.once other
    rw [show (world.getReply reply rest).sent = world.sent from rfl, ← once]
    simp only [share, senders, World.getReply, first, if_true, List.count_append, List.count_cons,
      List.count_nil]
    omega
  · intro sent purged
    rw [show (world.getReply reply rest).publisher = world.publisher from rfl, idle] at purged
    cases purged
  · intro round positive before other
    replace before : round < world.sent.length := before
    rw [senders, if_neg (Nat.ne_of_gt before), List.append_nil]
    exact balanced.complete round positive before other

/-- A paced action keeps the shares balanced, with the senders noted. -/
theorem Balanced.step (balanced : world.Balanced ledger) (fits : subscribers ≤ msgqSize)
    (room : ∀ subscriber, 1 ≤ capacity subscriber) {action : Action MessageType RetType subscribers}
    (paced : world.Paced action) (stepped : step world action = some next) :
    next.Balanced (world.note action ledger) := by
  cases action with
  | purge message =>
    -- Nothing is on its way, so the purge drops nothing.
    obtain ⟨drained, nobody⟩ := balanced.drained_of_paced paced
    obtain ⟨idle, rfl⟩ := step_purge.mp stepped
    refine ⟨rfl, balanced.entries, balanced.latest, fun subscriber => ?_,
      fun _ _ => ⟨rfl, drained.2⟩, balanced.complete⟩
    have once := balanced.once subscriber
    rw [← once]
    simp [share, note, Publisher.observers, idle, nobody]
  | publishFails => exact paced.elim
  | publish =>
    obtain ⟨message, purged, rfl⟩ := step_publish.mp stepped
    exact balanced.publish purged
  | listen =>
    obtain ⟨message, subscriber, observers, publishing, rfl⟩ := step_listen.mp stepped
    exact balanced.listen publishing (room subscriber)
  | finish =>
    obtain ⟨message, publishing, rfl⟩ := step_finish.mp stepped
    refine ⟨balanced.queue, balanced.entries, balanced.latest, fun subscriber => ?_, by simp,
      balanced.complete⟩
    rw [← balanced.once subscriber]
    simp [share, note, Publisher.observers, publishing]
  | take subscriber =>
    obtain ⟨idle, message, rest, got, rfl⟩ := step_take.mp stepped
    exact balanced.take idle got
  | setReply subscriber ret =>
    obtain ⟨message, held, rfl⟩ := step_setReply.mp stepped
    obtain ⟨answer, _⟩ := balanced.setReply_fits fits held { ret := ret, round := message.round }
    simp only [note, held, if_pos answer]
    exact balanced.setReply fits held
  | getReply =>
    obtain ⟨idle, reply, rest, got, rfl⟩ := step_getReply.mp stepped
    have queue := balanced.queue
    rw [Bounded.get_eq_some.mp got] at queue
    -- Every reply in the queue has a sender.
    obtain ⟨subscriber, others, first⟩ := List.exists_cons_of_length_eq_add_one queue
    simp only [note, first, got]
    exact balanced.getReply idle first got
  | timeout =>
    obtain ⟨_, _, rfl⟩ := step_timeout.mp stepped
    exact balanced

/-- Where the shares are balanced, a paced action drops nothing. -/
theorem Balanced.kept (balanced : world.Balanced ledger) (fits : subscribers ≤ msgqSize)
    (room : ∀ subscriber, 1 ≤ capacity subscriber) {action : Action MessageType RetType subscribers}
    (paced : world.Paced action) : world.Kept action := by
  -- Only three kinds of steps could drop anything.
  cases action with
  | purge message => exact (balanced.drained_of_paced paced).1.1
  | listen =>
    intro message subscriber observers publishing
    exact (balanced.listen_fits publishing (room subscriber) _).2.1
  | setReply subscriber ret =>
    intro message held
    exact (balanced.setReply_fits fits held _).1
  | publishFails | publish | finish | take | getReply | timeout => trivial

/-- A publication begins with nothing on its way. -/
theorem Balanced.settled (balanced : world.Balanced ledger)
    {action : Action MessageType RetType subscribers}
    (stepped : World.step world action = some next) : world.Settled action := by
  -- A purge that is paced left nothing behind.
  cases action with
  | publish =>
    obtain ⟨message, purged, _⟩ := step_publish.mp stepped
    exact fun _ => balanced.drained message purged
  | purge | publishFails | listen | finish | take | setReply | getReply | timeout => trivial

end Balance

/-- Before the first send nobody has a share in anything. -/
theorem balanced_initial :
    (initial capacity msgqSize : World MessageType RetType capacity msgqSize).Balanced .empty :=
  -- The ledger is empty, and so are all the queues.
  ⟨rfl, rfl, by simp [initial], fun subscriber => rfl, by simp [initial], by simp [initial]⟩

/-- The senders of a complete round are all subscribers. -/
theorem Balanced.perm_senders {world : World MessageType RetType capacity msgqSize}
    {ledger : Ledger RetType subscribers} (balanced : world.Balanced ledger) {round : Nat}
    (positive : 0 < round) (sent : round ≤ world.sent.length)
    (complete : round < world.sent.length ∨ (ledger.senders round).length = subscribers) :
    (ledger.senders round).Perm (List.finRange subscribers) := by
  refine List.perm_iff_count.mpr fun subscriber => ?_
  rw [List.count_eq_one_of_mem (List.nodup_finRange _) (List.mem_finRange subscriber)]
  rcases Nat.lt_or_eq_of_le sent with earlier | rfl
  · exact balanced.complete round positive earlier subscriber
  · -- The latest round is complete once as many replies were returned as there are subscribers.
    have full := complete.resolve_left (Nat.lt_irrefl _)
    have nodup := balanced.senders_nodup
    exact List.count_eq_one_of_mem nodup (mem_of_full nodup (Nat.le_of_eq full.symm) subscriber)

end World

/--
Every subscriber's reply is delivered exactly once, to the round it was made for.

The publisher waits for all replies before its next send, and then nothing is ever dropped.
-/
theorem delivered_once {MessageType RetType : Type*} {subscribers msgqSize : Nat}
    {capacity : Fin subscribers → Nat} {actions : List (Action MessageType RetType subscribers)}
    {last : World MessageType RetType capacity msgqSize} (fits : subscribers ≤ msgqSize)
    (room : ∀ subscriber, 1 ≤ capacity subscriber)
    (ran : World.step.run (.initial capacity msgqSize) actions = some last)
    (paced : World.step.Meets World.Paced
      (.initial capacity msgqSize : World MessageType RetType capacity msgqSize) actions) :
    World.step.Meets World.Kept
      (.initial capacity msgqSize : World MessageType RetType capacity msgqSize) actions ∧
    ∃ ledger : Ledger RetType subscribers,
      (World.step.withRecord World.note).run (.initial capacity msgqSize, .empty) actions =
        some (last, ledger) ∧
      ledger.received.map Prod.snd = last.returned ∧
      (∀ reply ∈ last.returned, reply.round = reply.latest) ∧
      ∀ round, 0 < round → round ≤ last.sent.length →
        round < last.sent.length ∨ (ledger.senders round).length = subscribers →
          (ledger.senders round).Perm (List.finRange subscribers) := by
  obtain ⟨ledger, recorded⟩ := Machine.exists_recorded World.note .empty ran
  -- The invariant is about the recorded run, and so is the condition then.
  have begun : (World.initial capacity msgqSize :
      World MessageType RetType capacity msgqSize).Balanced .empty ∧
        (World.initial capacity msgqSize :
          World MessageType RetType capacity msgqSize).UpToDate :=
    ⟨World.balanced_initial, World.upToDate_initial⟩
  have preserved : ∀ (state : World MessageType RetType capacity msgqSize ×
      Ledger RetType subscribers) action next,
      (state.1.Balanced state.2 ∧ state.1.UpToDate) → state.1.Paced action →
        World.step.withRecord World.note state action = some next →
        next.1.Balanced next.2 ∧ next.1.UpToDate := by
    rintro ⟨world, ledger⟩ action ⟨next, written⟩ ⟨balanced, upToDate⟩ paced stepped
    obtain ⟨stepped, rfl⟩ := Machine.withRecord_eq_some.mp stepped
    exact ⟨balanced.step fits room paced stepped, upToDate.step (balanced.settled stepped) stepped⟩
  have met := (Machine.meets_withRecord World.note .empty).mpr paced
  obtain ⟨balanced, upToDate⟩ := Machine.run_invariant_of_meets preserved begun met recorded
  refine ⟨?_, ledger, recorded, balanced.entries, upToDate.2, fun round positive sent complete =>
    balanced.perm_senders positive sent complete⟩
  refine (Machine.meets_withRecord World.note .empty).mp
    (Machine.meets_of_invariant preserved ?_ begun met)
  exact fun _ _ holds paced => holds.1.kept fits room paced

/-- Two subscribers answer two messages in opposite orders, and each answer comes back once. -/
theorem delivered_once_two :
    ∃ (last : World Nat Nat (fun _ : Fin 2 => 1) 2) (ledger : Ledger Nat 2),
      last.sent = [1, 2] ∧ last.returned.map (·.ret) = [15, 14, 24, 25] ∧
      ledger.received.map Prod.snd = last.returned ∧
      (∀ reply ∈ last.returned, reply.round = reply.latest) ∧
      ∀ round, 0 < round → round ≤ 2 →
        round < 2 ∨ (ledger.senders round).length = 2 →
          (ledger.senders round).Perm (List.finRange 2) := by
  -- The replies to the second message come in the order of the subscribers.
  let actions : List (Action Nat Nat 2) :=
    [.purge 1, .publish, .listen, .take 0, .listen, .finish, .take 1, .setReply 1 15, .getReply,
      .timeout, .setReply 0 14, .getReply, .purge 2, .publish, .listen, .listen, .take 0,
      .setReply 0 24, .take 1, .setReply 1 25, .finish, .getReply, .getReply]
  have completes : (World.step.run (.initial (fun _ : Fin 2 => 1) 2) actions).isSome := by decide
  have ran := (Option.some_get completes).symm
  obtain ⟨_, ledger, _, received, current, senders⟩ :=
    delivered_once (by decide) (by decide) ran (by decide)
  exact ⟨_, ledger, rfl, rfl, received, current, senders⟩

end Notus.ZBusWrapperWithReply
